import MatrixMedia.Fleet.Types
import MatrixMedia.Lib.Outline
import MatrixMedia.Lib.Table

/-!
# Which switch holds a viewer (`mm-api/src/switch_pool.rs`, `mm-api/src/switch_proxy.rs`)

mm-core sends an ad switch to the node it believes a viewer is on, and bills the impression
only when it is sure. The pool keeps the nodes and the bindings; which switch really holds a
viewer is the one that answered the viewer's latest offer, and that is kept beside the pool
here (`held`).

A viewer without a binding is taken to be on the origin when the pool is empty. That is right
as long as nobody was ever placed on a node (`billable_on_holder`), and wrong once the last node
is evicted under its viewers (`billed_on_origin`).
-/

namespace MatrixMedia.Ads

open Lib Lib.Interaction Fleet Multiset Table Option

open Std (TreeMap)

/-! ## The pool -/

abbrev ViewerId := String

/-- A `SwitchClient`, by its base URL. -/
abbrev SwitchClient := String

def acceptsNewViewers (state : NodeState) : Bool := state == .healthy

def isPlaceable (n : FleetNode) : Bool := acceptsNewViewers n.state && n.flavor.servesWebrtcViewers && decide (0 < n.headroom)

structure PoolEntry where
  node : FleetNode
  client : SwitchClient

structure SwitchPool where
  nodes : TreeMap NodeId PoolEntry
  viewers : TreeMap ViewerId NodeId
  origin : SwitchClient

/-- Where a viewer-scoped call goes, and whether its outcome may be billed. -/
structure ViewerRoute where
  client : SwitchClient
  nodeId : Option NodeId
  billable : Bool

deriving DecidableEq

namespace SwitchPool

/-- A pool with no fleet. -/
def new (origin : SwitchClient) : SwitchPool := ⟨∅, ∅, origin⟩

section

variable (pool : SwitchPool)

def upsert (node : FleetNode) (client : SwitchClient) : SwitchPool :=
  { pool with nodes := pool.nodes.insert node.id ⟨node, client⟩ }

/-- The node goes, and with it every binding that points at it. -/
def evict (id : NodeId) : SwitchPool :=
  { pool with nodes := pool.nodes.erase id, viewers := pool.viewers.filter fun _ n => n ≠ id }

def bindViewer (viewer : ViewerId) (node : NodeId) : SwitchPool :=
  { pool with viewers := pool.viewers.insert viewer node }

def unbindViewer (viewer : ViewerId) : SwitchPool :=
  { pool with viewers := pool.viewers.erase viewer }

def nodeOfViewer (viewer : ViewerId) : Option NodeId := pool.viewers[viewer]?

/-- The client for a node, or the origin's. -/
def clientForNode : Option NodeId → Option SwitchClient
  | none => some pool.origin
  | some id => (pool.nodes[id]?).map PoolEntry.client

/-- The placeable node with the most headroom; the smallest id wins a tie. -/
def pickPlaceable : Option (NodeId × SwitchClient) :=
  let best := (pool.nodes.toList.filter fun x => isPlaceable x.2.node).foldl
    (fun best x => match best with
      | none => some x
      | some b => if b.2.node.headroom < x.2.node.headroom then some x else some b) none
  best.map fun x => (x.1, x.2.client)

/-- A placed viewer is billable on its node; any other on the origin, and only without a fleet. -/
def routeViewer (viewer : ViewerId) : ViewerRoute :=
  match pool.nodeOfViewer viewer with
  | some id =>
    match pool.nodes[id]? with
    | some e => ⟨e.client, some id, true⟩
    | none => ⟨pool.origin, none, pool.nodes.isEmpty⟩
  | none => ⟨pool.origin, none, pool.nodes.isEmpty⟩

/-- `client` is how the pool reaches `node`. -/
def Reaches (node : Option NodeId) (client : SwitchClient) : Prop := pool.clientForNode node = some client

end

/-- A pick is one of the nodes, with its own client. -/
theorem pickPlaceable_reaches {pool : SwitchPool} {id client} (h : pool.pickPlaceable = some (id, client)) :
    pool.Reaches (some id) client := by
  have hmem : ∀ (xs : List (NodeId × PoolEntry)) (best x : Option (NodeId × PoolEntry)), (∀ y ∈ xs, pool.nodes[y.1]? = some y.2) →
      (∀ y ∈ best, pool.nodes[y.1]? = some y.2) →
      xs.foldl (fun best x => match best with
        | none => some x
        | some b => if b.2.node.headroom < x.2.node.headroom then some x else some b) best = x →
      ∀ y ∈ x, pool.nodes[y.1]? = some y.2 := by
    intro xs
    induction xs with
    | nil =>
      intro best x _ hbest heq
      exact heq ▸ hbest
    | cons a xs ih =>
      intro best x hxs hbest heq
      refine ih _ x (fun y hy => hxs y (List.mem_cons_of_mem _ hy)) (fun y hy => ?_) heq
      cases best with
      | none =>
        cases hy
        exact hxs a List.mem_cons_self
      | some b =>
        dsimp only at hy
        split at hy
        · cases hy
          exact hxs a List.mem_cons_self
        · exact hbest y hy
  obtain ⟨x, hx, heq⟩ := map_eq_some_iff.mp h
  cases heq
  have hnode := hmem _ none _ (fun y hy => mem_toList.mp (List.mem_filter.mp hy).1) nofun rfl x hx
  simp [Reaches, clientForNode, hnode]

end SwitchPool

/-! ## Offers -/

/-- The switch that answered a viewer's latest offer, and whether it was evicted since. -/
structure Holder where
  nodeId : Option NodeId
  client : SwitchClient
  evicted : Bool

deriving DecidableEq

structure RoutingState where
  pool : SwitchPool
  held : TreeMap ViewerId Holder

inductive RoutingRequest where
  | upsert (node : FleetNode) (client : SwitchClient)
  | evict (id : NodeId)
  | nodeOfViewer (viewer : ViewerId)
  | clientForNode (id : NodeId)
  | assignFanoutNode
  | origin
  | bindViewer (viewer : ViewerId) (node : NodeId)
  | unbindViewer (viewer : ViewerId)
  /-- The offer reaches the switch behind `client`. -/
  | viewerOffer (viewer : ViewerId) (node : Option NodeId) (client : SwitchClient)

abbrev RoutingRequest.Reply : RoutingRequest → Type
  | .nodeOfViewer _ => Option NodeId
  | .clientForNode _ => Option SwitchClient
  | .assignFanoutNode => Option (NodeId × SwitchClient)
  | .origin => SwitchClient
  | _ => Unit

def markEvicted (id : NodeId) (h : Holder) : Holder := if h.nodeId = some id then { h with evicted := true } else h

namespace RoutingState

def upsert (s : RoutingState) (node : FleetNode) (client : SwitchClient) : RoutingState := { s with pool := s.pool.upsert node client }

def evict (s : RoutingState) (id : NodeId) : RoutingState := ⟨s.pool.evict id, s.held.map fun _ => markEvicted id⟩

def request (s : RoutingState) : (q : RoutingRequest) → RoutingState × q.Reply
  | .upsert node client => (s.upsert node client, ())
  | .evict id => (s.evict id, ())
  | .nodeOfViewer viewer => (s, s.pool.nodeOfViewer viewer)
  | .clientForNode id => (s, s.pool.clientForNode (some id))
  | .assignFanoutNode => (s, s.pool.pickPlaceable)
  | .origin => (s, s.pool.origin)
  | .bindViewer viewer node => ({ s with pool := s.pool.bindViewer viewer node }, ())
  | .unbindViewer viewer => ({ s with pool := s.pool.unbindViewer viewer }, ())
  | .viewerOffer viewer node client => ({ s with held := s.held.insert viewer ⟨node, client, false⟩ }, ())

end RoutingState

def routingService : Service RoutingState Unit Empty RoutingRequest RoutingRequest.Reply where
  request := fun s q _ => s.request q
  move := fun s _ => s

abbrev RoutingAction := Prog RoutingRequest RoutingRequest.Reply Unit

section

variable (viewer : ViewerId)

def forwardOffer (node : Option NodeId) (client : SwitchClient) : RoutingAction :=
  .call (.viewerOffer viewer node client) fun _ => .ret ()

/-- Bind before forwarding; unbound means on the origin. -/
def placeViewer (node : Option NodeId) (client : SwitchClient) : RoutingAction :=
  match node with
  | some id => .call (.bindViewer viewer id) fun _ => forwardOffer viewer node client
  | none => .call (.unbindViewer viewer) fun _ => forwardOffer viewer node client

def placeOnOrigin : RoutingAction := .call .origin fun client => placeViewer viewer none client

/-- A node for a viewer that has none. -/
def assignViewer : RoutingAction :=
  .call .assignFanoutNode fun picked =>
    match picked with
    | some (id, client) => placeViewer viewer (some id) client
    | none => placeOnOrigin viewer

/-- The node the viewer is bound to, unless it is gone. -/
def reuseNode (id : NodeId) : RoutingAction :=
  .call (.clientForNode id) fun found =>
    match found with
    | some client => placeViewer viewer (some id) client
    | none => assignViewer viewer

/-- The pool operations of `proxy_viewer_offer` and the offer it forwards. -/
def proxyOffer : RoutingAction :=
  .call (.nodeOfViewer viewer) fun bound =>
    match bound with
    | some id => reuseNode viewer id
    | none => assignViewer viewer

end

inductive RoutingJob where
  | upsert (n : Nat) (node : FleetNode) (client : SwitchClient)
  | evict (n : Nat) (id : NodeId)
  | offer (n : Nat) (viewer : ViewerId)

def RoutingJob.program : RoutingJob → RoutingAction
  | .upsert _ node client => .call (.upsert node client) fun _ => .ret ()
  | .evict _ id => .call (.evict id) fun _ => .ret ()
  | .offer _ viewer => proxyOffer viewer

/-- The viewer whose offer this is. -/
def RoutingJob.viewer : RoutingJob → Option ViewerId
  | .offer _ viewer => some viewer
  | _ => none

/-- The node this evicts. -/
def RoutingJob.evicts : RoutingJob → Option NodeId
  | .evict _ id => some id
  | _ => none

abbrev RoutingPool := Pool RoutingState RoutingRequest RoutingRequest.Reply RoutingJob Unit

abbrev RoutingEvent := Event RoutingJob Unit Empty

def routingStep : RoutingPool → RoutingEvent → RoutingPool := poolStep routingService RoutingJob.program

/-- No fleet, and nobody has made an offer. -/
def RoutingPool.start (origin : SwitchClient) : RoutingPool := ⟨⟨.new origin, ∅⟩, [], []⟩

/-! ## What a route promises -/

/-- A billable route of a viewer that has made an offer is to the switch that holds it. -/
def BillsHolder (s : RoutingState) (viewer : ViewerId) : Prop :=
  ∀ holder ∈ s.held[viewer]?, (s.pool.routeViewer viewer).billable = true →
    (s.pool.routeViewer viewer).client = holder.client ∧ (s.pool.routeViewer viewer).nodeId = holder.nodeId ∧ holder.evicted = false

/-- Where a viewer with no offer in flight stands. -/
def Settled (s : RoutingState) (viewer : ViewerId) : Prop :=
  match s.held[viewer]? with
  | none => s.pool.viewers[viewer]? = none
  | some holder =>
    if holder.evicted then s.pool.viewers[viewer]? = none ∧ holder.nodeId ≠ none
    else s.pool.viewers[viewer]? = holder.nodeId ∧ s.pool.Reaches holder.nodeId holder.client

/-- While the pool is empty, no viewer was ever placed on a node. -/
def NeverPlaced (s : RoutingState) : Prop :=
  s.pool.nodes.isEmpty = true → ∀ (viewer : ViewerId) (holder : Holder), s.held[viewer]? = some holder → holder.nodeId = none

theorem Settled.bills {s viewer} (h : Settled s viewer) (hplaced : NeverPlaced s) : BillsHolder s viewer := by
  intro holder hheld hbill
  rw [mem_def] at hheld
  unfold Settled at h
  rw [hheld] at h
  dsimp only at h
  split at h
  · -- evicted: only an empty pool would bill it
    have hroute : s.pool.routeViewer viewer = ⟨s.pool.origin, none, s.pool.nodes.isEmpty⟩ := by
      simp [SwitchPool.routeViewer, SwitchPool.nodeOfViewer, h.1]
    rw [hroute] at hbill
    exact absurd (hplaced hbill viewer holder hheld) h.2
  · rename_i hstays
    have hlives : holder.evicted = false := by simpa using hstays
    obtain ⟨hbound, hreach⟩ := h
    cases hnode : holder.nodeId with
    | none =>
      rw [hnode] at hbound hreach
      have hroute : s.pool.routeViewer viewer = ⟨s.pool.origin, none, s.pool.nodes.isEmpty⟩ := by
        simp [SwitchPool.routeViewer, SwitchPool.nodeOfViewer, hbound]
      rw [hroute]
      exact ⟨Option.some.inj hreach, rfl, hlives⟩
    | some id =>
      rw [hnode] at hbound hreach
      obtain ⟨e, he, hclient⟩ := map_eq_some_iff.mp hreach
      have hroute : s.pool.routeViewer viewer = ⟨e.client, some id, true⟩ := by
        simp [SwitchPool.routeViewer, SwitchPool.nodeOfViewer, hbound, he]
      rw [hroute]
      exact ⟨hclient, rfl, hlives⟩

/-! ## Stages of an offer -/

inductive Placing where
  | idle
  | upserting (node : FleetNode) (client : SwitchClient)
  | evicting (id : NodeId)
  | asking (viewer : ViewerId)
  | reusing (viewer : ViewerId) (id : NodeId)
  | assigning (viewer : ViewerId)
  | homing (viewer : ViewerId)
  | placing (viewer : ViewerId) (node : Option NodeId) (client : SwitchClient)
  | forwarding (viewer : ViewerId) (node : Option NodeId) (client : SwitchClient)

/-- What is left to do. -/
def Placing.rest : Placing → RoutingAction
  | .idle => .ret ()
  | .upserting node client => .call (.upsert node client) fun _ => .ret ()
  | .evicting id => .call (.evict id) fun _ => .ret ()
  | .asking viewer => proxyOffer viewer
  | .reusing viewer id => reuseNode viewer id
  | .assigning viewer => assignViewer viewer
  | .homing viewer => placeOnOrigin viewer
  | .placing viewer node client => placeViewer viewer node client
  | .forwarding viewer node client => forwardOffer viewer node client

/-- Whose stage it is, and that the node an offer was given is still there. -/
def Placing.Ok (s : RoutingState) (k : RoutingJob) : Placing → Prop
  | .idle => True
  | .upserting _ _ => k.viewer = none
  | .evicting id => k.viewer = none ∧ k.evicts = some id
  | .asking viewer | .reusing viewer _ | .assigning viewer | .homing viewer => k.viewer = some viewer
  | .placing viewer node client => k.viewer = some viewer ∧ s.pool.Reaches node client
  | .forwarding viewer node client => k.viewer = some viewer ∧ s.pool.Reaches node client ∧ s.pool.viewers[viewer]? = node

/-- What the stages mean for the pool and the switches. -/
structure RoutingInv (s : RoutingState) (notes : Multiset (RoutingJob × Placing)) : Prop where
  settled : ∀ viewer, (∀ x ∈ notes, x.1.viewer = some viewer → x.2 = .idle) → Settled s viewer
  placed : NeverPlaced s
  stages : ∀ x ∈ notes, x.2.Ok s x.1
  apart : (notes.filterMap fun x => x.1.viewer).Nodup
  alone : ∀ x ∈ notes, x.1.evicts ≠ none → ∀ y ∈ notes, y.1.viewer = none

section

variable {s s' : RoutingState} {notes : Multiset (RoutingJob × Placing)} {k : RoutingJob} {t t' : Placing}

theorem RoutingInv.join (h : RoutingInv s notes) (hstage : t.Ok s k) (hother : ∀ viewer ∈ k.viewer, ∀ x ∈ notes, x.1.viewer ≠ some viewer)
    (hevict : k.evicts ≠ none → k.viewer = none ∧ ∀ x ∈ notes, x.1.viewer = none)
    (hoffer : k.viewer ≠ none → ∀ x ∈ notes, x.1.evicts = none) : RoutingInv s ((k, t) ::ₘ notes) where
  settled := fun viewer hidle => h.settled viewer fun x hx => hidle x (mem_cons_of_mem hx)
  placed := h.placed
  stages := fun x hx => by
    rcases mem_cons.mp hx with rfl | hx
    · exact hstage
    · exact h.stages x hx
  apart := by
    cases hk : k.viewer with
    | none =>
      rw [filterMap_cons_none (f := fun x : RoutingJob × Placing => x.1.viewer) _ _ hk]
      exact h.apart
    | some viewer =>
      rw [filterMap_cons_some (fun x : RoutingJob × Placing => x.1.viewer) _ _ hk, nodup_cons, mem_filterMap]
      refine ⟨?_, h.apart⟩
      rintro ⟨x, hx, heq⟩
      exact hother viewer hk x hx heq
  alone := fun x hx hevicts y hy => by
    rcases mem_cons.mp hx with rfl | hx
    · rcases mem_cons.mp hy with rfl | hy
      · exact (hevict hevicts).1
      · exact (hevict hevicts).2 y hy
    · rcases mem_cons.mp hy with rfl | hy
      · cases hk : k.viewer with
        | none => rfl
        | some viewer => exact absurd (hoffer (by rw [hk]; exact some_ne_none viewer) x hx) hevicts
      · exact h.alone x hx hevicts y hy

theorem RoutingInv.leave (h : RoutingInv s ((k, .idle) ::ₘ notes)) : RoutingInv s notes where
  settled := fun viewer hidle => h.settled viewer fun x hx hk => by
    rcases mem_cons.mp hx with rfl | hx
    · rfl
    · exact hidle x hx hk
  placed := h.placed
  stages := fun x hx => h.stages x (mem_cons_of_mem hx)
  apart := nodup_of_le (filterMap_le_filterMap _ (le_cons_self _ _)) h.apart
  alone := fun x hx hevicts y hy => h.alone x (mem_cons_of_mem hx) hevicts y (mem_cons_of_mem hy)

variable {viewer : ViewerId} {node : Option NodeId} {client : SwitchClient}

section

variable (h : RoutingInv s ((k, t) ::ₘ notes))

include h

/-- No other offer in flight is for the same viewer. -/
theorem RoutingInv.other (hk : k.viewer = some viewer) {x}
    (hx : x ∈ notes) : x.1.viewer ≠ some viewer := by
  intro hsame
  have happart := h.apart
  rw [filterMap_cons_some (fun x : RoutingJob × Placing => x.1.viewer) _ _ hk, nodup_cons, mem_filterMap]
    at happart
  exact happart.1 ⟨x, hx, hsame⟩

/-- Which jobs are in flight does not change when one goes on. -/
theorem RoutingInv.apart_restage : (((k, t') ::ₘ notes).filterMap fun x => x.1.viewer).Nodup := by
  have happart := h.apart
  rw [filterMap_cons] at happart ⊢
  exact happart

theorem RoutingInv.alone_restage :
    ∀ x ∈ (k, t') ::ₘ notes, x.1.evicts ≠ none → ∀ y ∈ (k, t') ::ₘ notes, y.1.viewer = none := by
  have hjob : ∀ {x}, x ∈ (k, t') ::ₘ notes → ∃ y ∈ (k, t) ::ₘ notes, y.1 = x.1 := by
    intro x hx
    rcases mem_cons.mp hx with rfl | hx
    · exact ⟨_, mem_cons_self _ _, rfl⟩
    · exact ⟨x, mem_cons_of_mem hx, rfl⟩
  intro x hx hevicts y hy
  obtain ⟨x', hx', heqx⟩ := hjob hx
  obtain ⟨y', hy', heqy⟩ := hjob hy
  rw [← heqy]
  exact h.alone x' hx' (by rwa [heqx]) y' hy'

end

/-! ## What each act does -/

/-- The nodes, the origin and every other viewer are as before. -/
structure OnlyViewer (viewer : ViewerId) (s s' : RoutingState) : Prop where
  nodes : s'.pool.nodes = s.pool.nodes
  origin : s'.pool.origin = s.pool.origin
  viewers : ∀ v, v ≠ viewer → s'.pool.viewers[v]? = s.pool.viewers[v]?
  held : ∀ v, v ≠ viewer → s'.held[v]? = s.held[v]?

theorem OnlyViewer.refl (viewer : ViewerId) (s : RoutingState) : OnlyViewer viewer s s := ⟨rfl, rfl, fun _ _ => rfl, fun _ _ => rfl⟩

theorem OnlyViewer.reaches (h : OnlyViewer viewer s s') :
    s'.pool.Reaches node client ↔ s.pool.Reaches node client := by
  cases node with
  | none => simp [SwitchPool.Reaches, SwitchPool.clientForNode, h.origin]
  | some id => simp [SwitchPool.Reaches, SwitchPool.clientForNode, h.nodes]

theorem OnlyViewer.settled {viewer v} (h : OnlyViewer viewer s s') (hv : v ≠ viewer) (hs : Settled s v) : Settled s' v := by
  unfold Settled at hs ⊢
  rw [h.held v hv, h.viewers v hv]
  split at hs
  · exact hs
  · rw [h.reaches]
    exact hs

/-- `node` is registered with this client, or not at all. -/
def SwitchPool.KeepsClient (pool : SwitchPool) (node : FleetNode) (client : SwitchClient) : Prop :=
  ∀ e ∈ pool.nodes[node.id]?, e.client = client

theorem upsert_reaches {node} (hsame : s.pool.KeepsClient node client) {id c} (h : s.pool.Reaches id c) : (s.upsert node client).pool.Reaches id c := by
  cases id with
  | none => exact h
  | some id =>
    obtain ⟨e, he, hclient⟩ := map_eq_some_iff.mp h
    simp only [SwitchPool.Reaches, SwitchPool.clientForNode, RoutingState.upsert, SwitchPool.upsert]
    rw [getElem?_insert]
    split
    · rename_i heq
      rw [map_some, ← hclient, hsame e (heq ▸ he)]
    · rw [he, map_some, hclient]

/-- The eviction leaves a node, or nobody is on one. -/
def RoutingState.KeepsFleet (s : RoutingState) (id : NodeId) : Prop :=
  (s.pool.nodes.erase id).isEmpty = false ∨ ∀ x ∈ s.held.toList, x.2.nodeId = none

/-- A settled viewer of an evicted node is unbound; any other stays where it is. -/
theorem Settled.evict (h : Settled s viewer) (id : NodeId) : Settled (s.evict id) viewer := by
  unfold Settled at h ⊢
  simp only [RoutingState.evict, SwitchPool.evict, getElem?_filter, TreeMap.getElem?_map]
  cases hheld : s.held[viewer]? with
  | none =>
    rw [hheld] at h
    simp only [map_none]
    rw [h]
    rfl
  | some holder =>
    rw [hheld] at h
    simp only [map_some, markEvicted]
    by_cases hevicted : holder.evicted = true
    · simp only [hevicted, if_true] at h
      rw [h.1]
      split <;> simp [h.2]
    · simp only [hevicted, Bool.false_eq_true, if_false] at h
      obtain ⟨hbound, hreach⟩ := h
      rw [hbound]
      by_cases hnode : holder.nodeId = some id
      · simp [hnode]
      · rw [if_neg hnode, if_neg hevicted]
        cases hid : holder.nodeId with
        | none => exact ⟨rfl, by rw [hid] at hreach; exact hreach⟩
        | some other =>
          rw [hid] at hreach hnode
          have hne : other ≠ id := fun heq => hnode (by rw [heq])
          refine ⟨by simp [hne], ?_⟩
          simp only [SwitchPool.Reaches, SwitchPool.clientForNode]
          rw [getElem?_erase, if_neg (Ne.symm hne)]
          exact hreach

section
variable (h : RoutingInv s ((k, t) ::ₘ notes))
include h

/-- **An act of one offer**: the other offers and viewers see nothing of it. -/
theorem RoutingInv.act (hk : k.viewer = some viewer) (hs : OnlyViewer viewer s s')
    (hplaced : NeverPlaced s') (hstage : t'.Ok s' k) (hsettled : t' = .idle → Settled s' viewer) : RoutingInv s' ((k, t') ::ₘ notes) where
  settled := fun v hidle => by
    by_cases hv : v = viewer
    · subst hv
      exact hsettled (hidle _ (mem_cons_self _ _) hk)
    · refine hs.settled hv (h.settled v fun x hx hviewer => ?_)
      rcases mem_cons.mp hx with rfl | hx
      · exact absurd (Option.some.inj (hviewer.symm.trans hk)) hv
      · exact hidle x (mem_cons_of_mem hx) hviewer
  placed := hplaced
  stages := fun x hx => by
    rcases mem_cons.mp hx with rfl | hx
    · exact hstage
    · have hother := h.other hk hx
      have hok := h.stages x (mem_cons_of_mem hx)
      obtain ⟨job, stage⟩ := x
      cases stage with
      | placing v node client => exact ⟨hok.1, hs.reaches.mpr hok.2⟩
      | forwarding v node client =>
        refine ⟨hok.1, hs.reaches.mpr hok.2.1, ?_⟩
        rw [hs.viewers v fun heq => hother (heq ▸ hok.1)]
        exact hok.2.2
      | _ => exact hok
  apart := h.apart_restage
  alone := h.alone_restage

/-- An offer that only read goes on. -/
theorem RoutingInv.read (hk : k.viewer = some viewer) (hstage : t'.Ok s k)
    (hgoing : t' ≠ .idle) : RoutingInv s ((k, t') ::ₘ notes) :=
  h.act hk (OnlyViewer.refl viewer s) h.placed hstage fun hidle => absurd hidle hgoing

theorem RoutingInv.upsert {node} (hk : k.viewer = none)
    (hsame : s.pool.KeepsClient node client) : RoutingInv (s.upsert node client) ((k, .idle) ::ₘ notes) where
  settled := fun v hidle => by
    have hs : Settled s v := h.settled v fun x hx hviewer => by
      rcases mem_cons.mp hx with rfl | hx
      · cases hk.symm.trans hviewer
      · exact hidle x (mem_cons_of_mem hx) hviewer
    unfold Settled at hs ⊢
    simp only [RoutingState.upsert, SwitchPool.upsert]
    split at hs
    · exact hs
    · split at hs
      · rename_i hevicted
        rw [if_pos hevicted]
        exact hs
      · rename_i hevicted
        rw [if_neg hevicted]
        exact ⟨hs.1, upsert_reaches hsame hs.2⟩
  placed := fun hempty => by
    simp [RoutingState.upsert, SwitchPool.upsert] at hempty
  stages := fun x hx => by
    rcases mem_cons.mp hx with rfl | hx
    · trivial
    · have hok := h.stages x (mem_cons_of_mem hx)
      obtain ⟨job, stage⟩ := x
      cases stage with
      | placing v node client => exact ⟨hok.1, upsert_reaches hsame hok.2⟩
      | forwarding v node client => exact ⟨hok.1, upsert_reaches hsame hok.2.1, hok.2.2⟩
      | _ => exact hok
  apart := h.apart_restage
  alone := h.alone_restage

theorem RoutingInv.evict {id} (hk : k.evicts = some id) (hfleet : s.KeepsFleet id) :
    RoutingInv (s.evict id) ((k, .idle) ::ₘ notes) := by
  have halone : ∀ x ∈ (k, t) ::ₘ notes, x.1.viewer = none :=
    h.alone _ (mem_cons_self _ _) (by rw [hk]; exact some_ne_none id)
  refine ⟨fun v _ => ?_, fun hempty v holder hheld => ?_, fun x hx => ?_, h.apart_restage, h.alone_restage⟩
  · refine Settled.evict (h.settled v fun x hx hviewer => ?_) id
    cases (halone x hx).symm.trans hviewer
  · rcases hfleet with hleft | hnobody
    · cases hleft.symm.trans hempty
    · simp only [RoutingState.evict, TreeMap.getElem?_map] at hheld
      obtain ⟨before, hbefore, rfl⟩ := map_eq_some_iff.mp hheld
      have hnone := hnobody (v, before) (mem_toList.mpr hbefore)
      unfold markEvicted
      split <;> exact hnone
  · rcases mem_cons.mp hx with rfl | hx
    · trivial
    · have hok := h.stages x (mem_cons_of_mem hx)
      have hnone := halone x (mem_cons_of_mem hx)
      obtain ⟨job, stage⟩ := x
      -- the stages that rest on a node are those of offers
      cases stage with
      | placing | forwarding => cases hnone.symm.trans hok.1
      | _ => exact hok

end

/-- The offer is bound to its node, or unbound for the origin. -/
theorem RoutingInv.place
    (h : RoutingInv s ((k, .placing viewer node client) ::ₘ notes)) {viewers} (hbound : viewers[viewer]? = node)
    (hother : ∀ v, v ≠ viewer → viewers[v]? = s.pool.viewers[v]?) :
    RoutingInv { s with pool := { s.pool with viewers := viewers } } ((k, .forwarding viewer node client) ::ₘ notes) := by
  obtain ⟨hk, hreach⟩ := h.stages _ (mem_cons_self _ _)
  have hs : OnlyViewer viewer s { s with pool := { s.pool with viewers := viewers } } := ⟨rfl, rfl, hother, fun _ _ => rfl⟩
  exact h.act hk hs h.placed ⟨hk, hs.reaches.mpr hreach, hbound⟩ fun hidle => Placing.noConfusion hidle

/-- The switch has the offer. -/
theorem RoutingInv.forward
    (h : RoutingInv s ((k, .forwarding viewer node client) ::ₘ notes)) :
    RoutingInv { s with held := s.held.insert viewer ⟨node, client, false⟩ } ((k, .idle) ::ₘ notes) := by
  obtain ⟨hk, hreach, hbound⟩ := h.stages _ (mem_cons_self _ _)
  have hs : OnlyViewer viewer s { s with held := s.held.insert viewer ⟨node, client, false⟩ } :=
    ⟨rfl, rfl, fun _ _ => rfl, fun v hv => by rw [getElem?_insert, if_neg (Ne.symm hv)]⟩
  refine h.act hk hs (fun hempty v holder hheld => ?_) trivial fun _ => ?_
  · rw [getElem?_insert] at hheld
    split at hheld
    · cases hheld
      cases node with
      | none => rfl
      | some id =>
        -- a node the offer reaches is in the pool
        obtain ⟨e, he, -⟩ := map_eq_some_iff.mp hreach
        rw [TreeMap.getElem?_of_isEmpty hempty] at he
        cases he
    · exact h.placed hempty v holder hheld
  · unfold Settled
    simp only
    rw [getElem?_insert, if_pos rfl]
    exact ⟨hbound, hreach⟩

end

/-! ## Runs -/

/-- What a request of an orderly run looks like. -/
def RoutingRequest.Orderly (s : RoutingState) : RoutingRequest → Prop
  | .upsert node client => s.pool.KeepsClient node client
  | .evict id => s.KeepsFleet id
  | _ => True

/-- `k` may start beside these: no offer overlaps an eviction or an offer of the same viewer. -/
def RoutingJob.Apart (k : RoutingJob) (running : List (RoutingJob × RoutingAction)) : Prop :=
  (∀ viewer ∈ k.viewer, ∀ x ∈ running, x.1.viewer ≠ some viewer ∧ x.1.evicts = none) ∧ (k.evicts ≠ none → ∀ x ∈ running, x.1.viewer = none)

/-- An upsert keeps the client of a registered node, an eviction leaves a node unless nobody was
placed on one, and no offer overlaps an eviction or another offer of its viewer. -/
def Orderly (pool : RoutingPool) : RoutingEvent → Prop
  | .start k => k.Apart pool.running
  | .request place _ => ∀ q ∈ pool.next? place, q.Orderly pool.state
  | .move _ => True
  | .die => False

/-- **One step of one program.** -/
theorem RoutingInv.request {s : RoutingState} {notes k} {t : Placing} {q : RoutingRequest}
    {next} (h : RoutingInv s ((k, t) ::ₘ notes)) (hrest : .call q next = t.rest) (hq : q.Orderly s) :
    ∃ t', next (s.request q).2 = t'.rest ∧ RoutingInv (s.request q).1 ((k, t') ::ₘ notes) := by
  have hok := h.stages _ (mem_cons_self _ _)
  cases t with
  | idle => cases hrest
  | upserting node client =>
    cases hrest
    exact ⟨.idle, rfl, h.upsert hok hq⟩
  | evicting id =>
    cases hrest
    exact ⟨.idle, rfl, h.evict hok.2 hq⟩
  | asking viewer =>
    cases hrest
    cases hbound : s.pool.nodeOfViewer viewer with
    | some id => exact ⟨.reusing viewer id, by simp only [RoutingState.request, hbound]; rfl, h.read hok hok nofun⟩
    | none => exact ⟨.assigning viewer, by simp only [RoutingState.request, hbound]; rfl, h.read hok hok nofun⟩
  | reusing viewer id =>
    cases hrest
    cases hfound : s.pool.clientForNode (some id) with
    | some client =>
      exact ⟨.placing viewer (some id) client, by simp only [RoutingState.request, hfound]; rfl,
        h.read hok ⟨hok, hfound⟩ nofun⟩
    | none => exact ⟨.assigning viewer, by simp only [RoutingState.request, hfound]; rfl, h.read hok hok nofun⟩
  | assigning viewer =>
    cases hrest
    cases hpick : s.pool.pickPlaceable with
    | some x =>
      exact ⟨.placing viewer (some x.1) x.2, by simp only [RoutingState.request, hpick]; rfl,
        h.read hok ⟨hok, SwitchPool.pickPlaceable_reaches hpick⟩ nofun⟩
    | none => exact ⟨.homing viewer, by simp only [RoutingState.request, hpick]; rfl, h.read hok hok nofun⟩
  | homing viewer =>
    cases hrest
    exact ⟨.placing viewer none s.pool.origin, rfl, h.read hok ⟨hok, rfl⟩ nofun⟩
  | placing viewer node client =>
    cases node with
    | some id =>
      cases hrest
      refine ⟨.forwarding viewer (some id) client, rfl, h.place (by simp) fun v hv => ?_⟩
      rw [getElem?_insert, if_neg (Ne.symm hv)]
    | none =>
      cases hrest
      refine ⟨.forwarding viewer none client, rfl, h.place (by simp) fun v hv => ?_⟩
      rw [getElem?_erase, if_neg (Ne.symm hv)]
  | forwarding viewer node client =>
    cases hrest
    exact ⟨.idle, rfl, h.forward⟩

/-- Where a job starts. -/
theorem program_rest (s : RoutingState) (k : RoutingJob) : ∃ t : Placing, k.program = t.rest ∧ t.Ok s k := by
  cases k with
  | upsert n node client => exact ⟨.upserting node client, rfl, rfl⟩
  | evict n id => exact ⟨.evicting id, rfl, rfl, rfl⟩
  | offer n viewer => exact ⟨.asking viewer, rfl, rfl⟩

/-- The stages of the offers in flight, and what they mean for the pool. -/
def routingOutline : Outline routingService RoutingJob.program Orderly Placing where
  stands := fun _ p t => p = t.rest
  inv := fun s _ notes => RoutingInv s notes
  start := by
    intro pool k notes hinv hjobs hok
    obtain ⟨t, hrest, hstage⟩ := program_rest pool.state k
    refine ⟨t, hrest, hinv.join hstage (fun viewer hviewer x hx => ?_) (fun hevicts => ⟨?_, fun x hx => ?_⟩) fun hoffer x hx => ?_⟩
    · obtain ⟨y, hy, heq⟩ := Outline.mem_running hjobs hx
      exact heq ▸ (hok.1 viewer hviewer y hy).1
    · cases k with
      | offer n viewer => exact absurd rfl hevicts
      | _ => rfl
    · obtain ⟨y, hy, heq⟩ := Outline.mem_running hjobs hx
      exact heq ▸ hok.2 hevicts y hy
    · obtain ⟨y, hy, heq⟩ := Outline.mem_running hjobs hx
      obtain ⟨viewer, hviewer⟩ := ne_none_iff_exists'.mp hoffer
      exact heq ▸ (hok.1 viewer hviewer y hy).2
  request := by
    intro pool place k q next fate t notes hstands hinv hjobs hplace hok
    refine hinv.request hstands (hok q ?_)
    rw [Pool.next?, hplace]
    rfl
  finish := by
    intro s returned k a t notes hstands hinv
    have hidle : t = .idle := by
      cases t with
      | idle => rfl
      | placing viewer node client => cases node <;> cases hstands
      | _ => cases hstands
    exact (hidle ▸ hinv).leave
  move := by
    intro pool m notes hinv hok
    cases m
  die := by
    intro pool notes hinv hok
    cases hok

/-- **A billable ad goes to the switch that holds the viewer**: as long as no offer overlaps an
eviction or another offer of the same viewer, no upsert changes the client of a registered
node, and no eviction empties the pool once somebody was placed on a node. -/
theorem billable_on_holder (origin : SwitchClient) (h : List RoutingEvent) (pool : RoutingPool)
    (run : Run routingStep (fun _ pool e => Orderly pool e) (.start origin) h pool) (viewer : ViewerId)
    (hquiet : ∀ x ∈ pool.running, x.1.viewer ≠ some viewer) : BillsHolder pool.state viewer := by
  have hinit : routingOutline.Sound (RoutingPool.start origin) := by
    refine Outline.sound_start ⟨fun v _ => ?_, fun _ v holder hheld => ?_, fun _ hx => absurd hx (notMem_zero _),
      nodup_zero, fun _ hx => absurd hx (notMem_zero _)⟩
    · simp [Settled, SwitchPool.new]
    · cases TreeMap.getElem?_emptyc.symm.trans hheld
  obtain ⟨notes, hnotes, -, hinv⟩ := hinit.run run
  refine (hinv.settled viewer fun x hx hviewer => ?_).bills hinv.placed
  have hjobs : (Outline.stages notes).map Prod.fst = ofList (pool.running.map Prod.fst) := by rw [Outline.stages_jobs, hnotes]
  obtain ⟨y, hy, heq⟩ := Outline.mem_running hjobs hx
  exact absurd (heq ▸ hviewer) (hquiet y hy)

/-! ## A fleet that goes -/

instance decidableKeepsClient (pool : SwitchPool) (node : FleetNode) (client : SwitchClient) : Decidable (pool.KeepsClient node client) :=
  inferInstanceAs (Decidable (∀ e ∈ pool.nodes[node.id]?, _))

instance decidableKeepsFleet (s : RoutingState) (id : NodeId) : Decidable (s.KeepsFleet id) :=
  inferInstanceAs (Decidable (_ ∨ _))

instance decidableRequestOrderly (s : RoutingState) (q : RoutingRequest) : Decidable (q.Orderly s) := by
  cases q <;> unfold RoutingRequest.Orderly <;> infer_instance

instance decidableOrderly (pool : RoutingPool) (e : RoutingEvent) : Decidable (Orderly pool e) :=
  match e with
  | .start _ => inferInstanceAs (Decidable (_ ∧ _))
  | .request place _ => inferInstanceAs (Decidable (∀ q ∈ pool.next? place, _))
  | .move _ => isTrue trivial
  | .die => isFalse fun h => h

/-- A fan-out node with room for two viewers. -/
def fanout (id : NodeId) : FleetNode := ⟨id, .fanout, .rented, .healthy, 2, 0⟩

/-- `n1` joins and takes the viewer. -/
def placeOnNode : List RoutingEvent :=
  [.start (.upsert 1 (fanout "n1") "http://n1"), .request 0 (), .start (.offer 2 "v"), .request 0 (), .request 0 (), .request 0 (), .request 0 ()]

/-- A viewer placed on a node is billed there. -/
theorem billable_on_holder_n1 : ∃ h pool, Run routingStep (fun _ pool e => Orderly pool e) (.start "http://origin") h pool ∧
    pool.state.pool.routeViewer "v" = ⟨"http://n1", some "n1", true⟩ ∧ BillsHolder pool.state "v" := by
  apply Run.exists_and_of_follows (P := fun pool => pool.running = [] ∧ pool.state.pool.routeViewer "v" = ⟨"http://n1", some "n1", true⟩)
    placeOnNode (by decide +kernel)
  rintro h pool run ⟨hidle, hroute⟩
  refine ⟨hroute, billable_on_holder _ _ _ run "v" fun x hx => ?_⟩
  rw [hidle] at hx
  exact absurd hx List.not_mem_nil

/-- The last node goes under its viewer. -/
def evictLast : List RoutingEvent := placeOnNode ++ [.start (.evict 3 "n1"), .request 0 ()]

/-- Upserts, evictions and offers, one at a time. -/
def OneByOne (pool : RoutingPool) : RoutingEvent → Prop
  | .start _ => pool.running = []
  | .die => False
  | _ => True

instance decidableOneByOne (pool : RoutingPool) (e : RoutingEvent) : Decidable (OneByOne pool e) :=
  match e with
  | .start _ => decidable_of_iff (pool.running.isEmpty = true) List.isEmpty_iff
  | .die => isFalse fun h => h
  | .request _ _ | .move _ => isTrue trivial

/-- Once the only node is evicted, its viewer is billed on the origin, which never had an offer
from it; nothing overlaps. -/
theorem billed_on_origin : ∃ h pool, Run routingStep (fun _ pool e => OneByOne pool e) (.start "http://origin") h pool ∧
    (∀ x ∈ pool.running, x.1.viewer ≠ some "v") ∧ ¬BillsHolder pool.state "v" := by
  apply Run.exists_and_of_follows (P := fun pool => pool.running = [] ∧ pool.state.held["v"]? = some ⟨some "n1", "http://n1", true⟩ ∧
    pool.state.pool.routeViewer "v" = ⟨"http://origin", none, true⟩) evictLast (by decide +kernel)
  rintro h pool - ⟨hidle, hheld, hroute⟩
  refine ⟨fun x hx => ?_, fun hbills => ?_⟩
  · rw [hidle] at hx
    exact absurd hx List.not_mem_nil
  · obtain ⟨-, -, hevicted⟩ := hbills _ hheld (by rw [hroute])
    cases hevicted

end MatrixMedia.Ads
