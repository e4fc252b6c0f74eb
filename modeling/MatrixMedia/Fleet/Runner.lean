import MatrixMedia.Fleet.Store

/-!
# The reconcile loop and the sweepers (`mm-fleet/src/runner.rs`, `mm-fleet/src/sweeper.rs`)

One tick observes the tables, tears down what must go, writes the desired set of each
live broadcast and renders it for Terraform. The deadline sweeper and the orphan sweeper
are the two backstops. What the census, the billing source, the database, the provider
and the file system answer is an input of each step. The metrics and the in-memory set of
timed nodes feed nothing back and are left out.
-/

namespace MatrixMedia.Fleet
open Lib Lib.Text Lib.Chrono

inductive FleetMode where
  | on
  | frozen
  | off
deriving DecidableEq, Repr

def FleetMode.allowsPlacement : FleetMode → Bool
  | .on => true
  | _ => false

def FleetMode.text : FleetMode → String
  | .on => "on"
  | .frozen => "frozen"
  | .off => "off"

/-- A broadcast that is on air, with its current audience. -/
structure LiveBroadcast where
  broadcastId : String
  viewers : UInt32
deriving DecidableEq

/-- What a broadcast may spend. -/
structure BroadcastBilling where
  availableBalanceMinor : Int
  projectedCostMinor : Int
  transcodeEnabled : Bool

/-- What the billing source, the census and the database answer for one live broadcast. -/
structure PlanIo where
  quote : Except String BroadcastBilling
  programmeIsLive : Except String Bool
  upsert : DbOutcome

/-- What the outside answers during one tick. -/
structure TickIo where
  loadNodes : Option String
  loadAll : Option String
  liveBroadcasts : Except String (List (LiveBroadcast × PlanIo))
  teardown : NodeId → TeardownIo
  reload : Option String
  write : Option String

/-- What one tick did. -/
structure TickReport where
  mode : String := ""
  planned : List String := []
  skipped : List (String × String) := []
  tornDown : List NodeId := []
  teardownFailures : List NodeId := []
  nodesObserved : Nat := 0
  tfvarsNodes : Option Nat := none
deriving DecidableEq

/-- A `FleetRunner`: its policy, and the shrink threshold of its tfvars writer if it has one. -/
structure FleetRunner where
  policy : FleetPolicy
  tfvars : Option Rat

def ObservedNode.toFleetNode (n : ObservedNode) : FleetNode :=
  ⟨n.mmNodeId, n.flavor, n.ownership, n.state, n.viewerCapacity, n.viewersCurrent⟩

def broadcastStem (broadcastId : String) : String := "bc-" ++ broadcastId ++ "-"

/-- Nodes belonging to one broadcast, by the prefix of their id. -/
def nodesForBroadcast (nodes : List ObservedNode) (broadcastId : String) : List FleetNode :=
  (nodes.filter fun n => startsWith (broadcastStem broadcastId) n.mmNodeId).map ObservedNode.toFleetNode

/-- The observation `plan_one` hands to the planner. -/
def observationOf (bc : LiveBroadcast) (billing : BroadcastBilling) (programmeIsLive : Bool)
    (nodes : List ObservedNode) : FleetObservation where
  broadcastId := bc.broadcastId
  programmeIsLive := programmeIsLive
  transcodeEnabled := billing.transcodeEnabled
  viewersProjected := bc.viewers
  availableBalanceMinor := billing.availableBalanceMinor
  projectedCostMinor := billing.projectedCostMinor
  nodes := nodesForBroadcast nodes bc.broadcastId

/-- `FleetRunner::plan_one`. -/
def FleetRunner.planOne (r : FleetRunner) (w : World) (bc : LiveBroadcast) (nodes : List ObservedNode)
    (now : DateTime) (io : PlanIo) : World × Except String Unit :=
  match io.quote with
  | .error e => (w, .error e)
  | .ok billing =>
    match io.programmeIsLive with
    | .error e => (w, .error e)
    | .ok programmeIsLive =>
      let want := plan (observationOf bc billing programmeIsLive nodes) r.policy
      match w.upsertForBroadcast bc.broadcastId want now io.upsert with
      | (w, .ok ()) => (w, .ok ())
      | (w, .error e) => (w, .error ("writing the desired set failed: " ++ e.text))

/-- `FleetRunner::tear_down`. -/
def tearDown (now : DateTime) (io : NodeId → TeardownIo) (acc : World × TickReport) (node : ObservedNode) :
    World × TickReport :=
  match acc.1.teardown node.teardownTarget now (io node.mmNodeId) with
  | (w, .ok ()) => (w, { acc.2 with tornDown := acc.2.tornDown ++ [node.mmNodeId] })
  | (w, .error _) => (w, { acc.2 with teardownFailures := acc.2.teardownFailures ++ [node.mmNodeId] })

/-- `FleetRunner::render_tfvars`, from a fresh read. -/
def FleetRunner.renderTfvars (r : FleetRunner) (acc : World × TickReport) (allowShrink : Bool) (io : TickIo) :
    World × TickReport :=
  match r.tfvars with
  | none => acc
  | some shrinkThreshold =>
    match io.reload with
    | some _ => acc
    | none =>
      match acc.1.file.write shrinkThreshold acc.1.loadAll allowShrink io.write with
      | (file, .ok written) => ({ acc.1 with file := file }, { acc.2 with tfvarsNodes := some written.size })
      | (file, .error _) => ({ acc.1 with file := file }, acc.2)

/-- The broadcast a node was desired for, in the desired set the tick read. -/
def broadcastOf (desired : Std.TreeMap NodeId DesiredRow) (node : ObservedNode) : Option String :=
  (desired[node.mmNodeId]?).bind DesiredRow.broadcastId

/-- A node whose broadcast has desired rows but is no longer on air. -/
def isEnded (desired : Std.TreeMap NodeId DesiredRow) (live : List String) (node : ObservedNode) : Bool :=
  match broadcastOf desired node with
  | none => false
  | some bc => !live.contains bc && node.isReapableNow

/-- The loop over the live broadcasts. -/
def FleetRunner.planAll (r : FleetRunner) (nodes : List ObservedNode) (now : DateTime)
    (acc : World × TickReport) (bc : LiveBroadcast × PlanIo) : World × TickReport :=
  match r.planOne acc.1 bc.1 nodes now bc.2 with
  | (w, .ok ()) => (w, { acc.2 with planned := acc.2.planned ++ [bc.1.broadcastId] })
  | (w, .error why) => (w, { acc.2 with skipped := acc.2.skipped ++ [(bc.1.broadcastId, why)] })

/-- `FleetRunner::tick`: one reconcile pass. -/
def FleetRunner.tick (r : FleetRunner) (w : World) (mode : FleetMode) (now : DateTime) (io : TickIo) :
    World × Except StoreError TickReport :=
  match io.loadNodes with
  | some e => (w, .error (.db e))
  | none =>
    let nodes := w.loadNodes
    match io.loadAll with
    | some e => (w, .error (.db e))
    | none =>
      let desired := w.desired
      let report : TickReport := { mode := mode.text, nodesObserved := nodes.length }
      match mode with
      | .off =>
        let acc := (nodes.filter ObservedNode.isReapableNow).foldl (tearDown now io.teardown) (w, report)
        let acc := r.renderTfvars acc true io
        (acc.1, .ok acc.2)
      | _ =>
        match io.liveBroadcasts with
        | .error e => (w, .ok { report with skipped := report.skipped ++ [("*", "census unavailable: " ++ e)] })
        | .ok live =>
          let liveIds := live.map fun bc => bc.1.broadcastId
          let acc := (nodes.filter (isEnded desired liveIds)).foldl (tearDown now io.teardown) (w, report)
          let acc := if mode.allowsPlacement then live.foldl (r.planAll nodes now) acc else acc
          let acc := r.renderTfvars acc false io
          (acc.1, .ok acc.2)

/-! ## The sweepers -/

/-- Nodes whose deadline has passed and which we may destroy. -/
def dueForReaping (now : DateTime) (nodes : List ObservedNode) : List ObservedNode :=
  nodes.filter fun n => n.ownership.isReapable && n.state != .gone && n.destroyDeadline.any fun dl => dl ≤ now

/-- Outcome of one sweep. -/
structure SweepReport where
  reaped : List String := []
  failed : List String := []
  deferred : List String := []
  spared : List String := []
deriving DecidableEq

/-- One node of `sweep_deadlines`. -/
def sweepOne (increment : BillingIncrement) (now : DateTime) (io : NodeId → TeardownIo)
    (acc : World × SweepReport) (node : ObservedNode) : World × SweepReport :=
  let deadline := node.destroyDeadline.getD now
  match alignedTeardownAt increment node.billingStartedAt deadline now with
  | some _ => (acc.1, { acc.2 with deferred := acc.2.deferred ++ [node.mmNodeId] })
  | none =>
    match acc.1.teardown node.teardownTarget now (io node.mmNodeId) with
    | (w, .ok ()) => (w, { acc.2 with reaped := acc.2.reaped ++ [node.mmNodeId] })
    | (w, .error _) => (w, { acc.2 with failed := acc.2.failed ++ [node.mmNodeId] })

/-- `sweep_deadlines`. -/
def sweepDeadlines (w : World) (increment : BillingIncrement) (now : DateTime) (loadNodes : Option String)
    (io : NodeId → TeardownIo) : World × Except StoreError SweepReport :=
  match loadNodes with
  | some e => (w, .error (.db e))
  | none =>
    let acc := (dueForReaping now w.loadNodes).foldl (sweepOne increment now io) (w, {})
    (acc.1, .ok acc.2)

/-- May the orphan sweeper judge this instance yet? -/
def oldEnough (createdAt : Option DateTime) (now : DateTime) (minAge : Duration) : Bool :=
  match createdAt with
  | some t => decide (minAge ≤ now - t) && decide (t ≤ now)
  | none => false

/-- Instances the provider is running that we have no record of. -/
def orphans (atProvider known : List String) : List String := atProvider.filter fun id => !known.contains id

/-- What the outside answers during one orphan sweep. -/
structure OrphanIo where
  loadNodes : Option String
  list : Except ProviderError (List InstanceHandle)
  destroy : String → Except ProviderError Unit

/-- One orphan of `sweep_orphans`. -/
def destroyOrphan (now : DateTime) (minAge : Duration) (listed : List InstanceHandle)
    (destroy : String → Except ProviderError Unit) (acc : World × SweepReport) (id : String) : World × SweepReport :=
  let w := acc.1.log (.destroy ⟨id, acc.1.loadNodes, listed, now, minAge⟩)
  match destroy id with
  | .ok () => (w, { acc.2 with reaped := acc.2.reaped ++ [id] })
  | .error _ => (w, { acc.2 with failed := acc.2.failed ++ [id] })

/-- `sweep_orphans`. -/
def sweepOrphans (w : World) (now : DateTime) (minAge : Duration) (io : OrphanIo) :
    World × Except ProviderError SweepReport :=
  match io.loadNodes with
  | some e => (w, .error (.transient ("cannot read our own nodes: " ++ (StoreError.db e).text)))
  | none =>
    let known := w.loadNodes.filterMap ObservedNode.providerId
    match io.list with
    | .error e => (w, .error e)
    | .ok listed =>
      let atProvider := (listed.filter fun h => oldEnough h.createdAt now minAge).map InstanceHandle.providerId
      let spared := (listed.filter fun h => !oldEnough h.createdAt now minAge && !known.contains h.providerId).map
        InstanceHandle.providerId
      let acc := (orphans atProvider known).foldl (destroyOrphan now minAge listed io.destroy)
        (w, { spared := spared })
      (acc.1, .ok acc.2)

end MatrixMedia.Fleet
