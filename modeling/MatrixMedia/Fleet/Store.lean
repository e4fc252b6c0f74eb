import MatrixMedia.Lib.Table
import MatrixMedia.Fleet.Planner

/-!
# The fleet tables and the tfvars file (`mm-fleet/src/desired.rs`, `mm-fleet/src/tfvars.rs`)

`mm_fleet_desired` and `mm_fleet_nodes` are tables by `mm_node_id`, the file is what
Terraform reads. The CHECK pair of each table, that exactly the rented rows carry a
deadline, is a field of the row; the enumerated columns are the Rust types, since their
CHECK admits no other text (`ddl_agreement_tests`). A statement may succeed, fail, or
fail after it took effect (`DbOutcome`); which of them is an input.

`trace` is what the world saw of a run, newest first: rows the store wrote and rows a
teardown deleted, calls to the provider, and completed teardowns. The code never reads it.
-/

namespace MatrixMedia.Fleet
open Lib Lib.Chrono

/-- The value columns of `mm_fleet_desired`. -/
structure DesiredRow where
  flavor : NodeFlavor
  ownership : Ownership
  region : String
  size : String
  broadcastId : Option String
  requestedAt : DateTime
  destroyDeadline : Option DateTime
  /-- `desired_rented_needs_deadline` and `desired_nonrented_has_no_deadline`. -/
  deadline : destroyDeadline.isSome = ownership.requiresDestroyDeadline

/-- The columns of `mm_fleet_nodes` the fleet loops read. The viewer columns are `INTEGER`. -/
structure NodeRow where
  flavor : NodeFlavor
  ownership : Ownership
  state : NodeState
  providerId : Option String
  destroyDeadline : Option DateTime
  billingStartedAt : Option DateTime
  viewerCapacity : Option Int
  viewersCurrent : Int
  /-- `rented_needs_deadline` and `nonrented_has_no_deadline`. -/
  deadline : destroyDeadline.isSome = ownership.requiresDestroyDeadline

/-- A node as `mm_fleet_nodes` records it. -/
structure ObservedNode where
  mmNodeId : NodeId
  flavor : NodeFlavor
  ownership : Ownership
  state : NodeState
  /-- `none` also when the column holds the empty string. -/
  providerId : Option String
  destroyDeadline : Option DateTime
  billingStartedAt : Option DateTime
  viewerCapacity : UInt32
  viewersCurrent : UInt32
deriving DecidableEq

def ObservedNode.ofRow (id : NodeId) (r : NodeRow) : ObservedNode where
  mmNodeId := id
  flavor := r.flavor
  ownership := r.ownership
  state := r.state
  providerId := r.providerId.filter fun p => p != ""
  destroyDeadline := r.destroyDeadline
  billingStartedAt := r.billingStartedAt
  viewerCapacity := UInt32.ofNat (r.viewerCapacity.getD 0).toNat
  viewersCurrent := UInt32.ofNat r.viewersCurrent.toNat

/-- May this node be torn down right now? -/
def ObservedNode.isReapableNow (n : ObservedNode) : Bool := n.ownership.isReapable && n.state != .gone

/-- What teardown needs to know about a node. -/
structure TeardownTarget where
  mmNodeId : NodeId
  ownership : Ownership
  flavor : NodeFlavor
  providerId : Option String

def ObservedNode.teardownTarget (n : ObservedNode) : TeardownTarget :=
  ⟨n.mmNodeId, n.ownership, n.flavor, n.providerId⟩

/-! ## Errors -/

inductive ProviderError where
  | transient (message : String)
  | permanent (message : String)
  | capacity (message : String)
  | quota (message : String)
deriving DecidableEq

def ProviderError.text : ProviderError → String
  | .transient m => "transient provider failure: " ++ m
  | .permanent m => "permanent provider failure: " ++ m
  | .capacity m => "provider has no capacity: " ++ m
  | .quota m => "provider quota exhausted: " ++ m

inductive StoreError where
  | rentedWithoutDeadline (node : NodeId)
  | nonRentedWithDeadline (node : NodeId) (ownership : Ownership)
  | notReapable (node : NodeId) (ownership : Ownership)
  | provider (node : NodeId) (source : ProviderError)
  | db (message : String)
deriving DecidableEq

def StoreError.text : StoreError → String
  | .rentedWithoutDeadline node =>
    "node " ++ node ++ " is rented but carries no TTL; a rented node with no deadline bills forever"
  | .nonRentedWithDeadline node ownership =>
    "node " ++ node ++ " is " ++ ownership.asStr ++
      " and must not carry a TTL; a deadline on non-rented capacity invites the sweeper to destroy it"
  | .notReapable node ownership =>
    "refusing to tear down " ++ node ++ ": ownership " ++ ownership.asStr ++ " is not reapable"
  | .provider node source => "provider failure during teardown of " ++ node ++ ": " ++ source.text
  | .db message => "database error: " ++ message

/-- How a statement or transaction ends. -/
inductive DbOutcome where
  | done
  | failed (message : String)
  | unacknowledged (message : String)
deriving DecidableEq

def DbOutcome.applied : DbOutcome → Bool
  | .failed _ => false
  | _ => true

def DbOutcome.error? : DbOutcome → Option String
  | .done => none
  | .failed m => some m
  | .unacknowledged m => some m

/-! ## The file -/

/-- One entry of the Terraform `for_each` map; the deadline is rendered as RFC 3339. -/
structure TfNode where
  flavor : String
  ownership : String
  region : String
  size : String
  broadcastId : Option String
  destroyDeadline : Option DateTime
deriving DecidableEq

abbrev Tfvars := Std.TreeMap NodeId TfNode

/-- `desired_nodes.auto.tfvars.json` as it is on disk. -/
inductive TfFile where
  | absent
  | present (current : Tfvars)
  | unparsable (message : String)

def TfNode.ofRow (r : DesiredRow) : TfNode where
  flavor := r.flavor.asStr
  ownership := r.ownership.asStr
  region := r.region
  size := r.size
  broadcastId := r.broadcastId
  destroyDeadline := r.destroyDeadline

/-- `Tfvars::from_rows`. -/
def Tfvars.fromRows (rows : List (NodeId × DesiredRow)) : Tfvars :=
  rows.foldl (fun m r => m.insert r.1 (TfNode.ofRow r.2)) ∅

inductive TfvarsError where
  | unexpectedShrink (existing new removed : Nat)
  | serialize (message : String)
  | io (message : String)
deriving DecidableEq

/-- `TfvarsWriter::read_current`. -/
def TfFile.readCurrent : TfFile → Except TfvarsError Tfvars
  | .absent => .ok ∅
  | .present current => .ok current
  | .unparsable message => .error (.serialize message)

/-- The names a write would remove. -/
def removedNames (current next : Tfvars) : List NodeId := current.keys.filter fun k => !next.contains k

/-- Would this write remove more than the allowed fraction of the current entries? -/
def isShrink (shrinkThreshold : Rat) (current next : Tfvars) : Bool :=
  let removed := (removedNames current next).length
  decide (0 < removed) && decide (current.size * shrinkThreshold < removed)

/-- `TfvarsWriter::write`; `io` is an error of the temporary file or the rename. -/
def TfFile.write (file : TfFile) (shrinkThreshold : Rat) (rows : List (NodeId × DesiredRow)) (allowShrink : Bool)
    (io : Option String) : TfFile × Except TfvarsError Tfvars :=
  let next := Tfvars.fromRows rows
  let commit : TfFile × Except TfvarsError Tfvars :=
    match io with
    | some message => (file, .error (.io message))
    | none => (.present next, .ok next)
  if allowShrink then commit
  else
    match file.readCurrent with
    | .error e => (file, .error e)
    | .ok current =>
      if isShrink shrinkThreshold current next then
        (file, .error (.unexpectedShrink current.size next.size (removedNames current next).length))
      else commit

/-! ## The world -/

/-- An instance the provider lists. -/
structure InstanceHandle where
  providerId : String
  publicIp : Option String
  createdAt : Option DateTime
deriving DecidableEq

/-- A call of `provider.destroy`, with what justified it: the nodes as recorded at that
moment and, for the orphan sweeper, the listing it worked from. -/
structure DestroyCall where
  providerId : String
  nodes : List ObservedNode
  listed : List InstanceHandle
  now : DateTime
  minAge : Duration
deriving DecidableEq

inductive Effect where
  /-- `upsert_for_broadcast` inserted or updated a desired row. -/
  | wroteDesired (node : NodeId)
  /-- `teardown` deleted a desired row that was there. -/
  | droppedDesired (node : NodeId)
  | destroy (call : DestroyCall)
  /-- `teardown` returned `Ok`. -/
  | tornDown (node : NodeId)
deriving DecidableEq

structure World where
  desired : Std.TreeMap NodeId DesiredRow
  nodes : Std.TreeMap NodeId NodeRow
  file : TfFile
  trace : List Effect

section
variable (w : World)

def World.log (e : Effect) : World := { w with trace := e :: w.trace }

/-- `DesiredStore::load_all`, in the order of the primary key. -/
def World.loadAll : List (NodeId × DesiredRow) := w.desired.toList

/-- `DesiredStore::load_nodes`, in the order of the primary key. -/
def World.loadNodes : List ObservedNode := w.nodes.toList.map fun r => ObservedNode.ofRow r.1 r.2

/-- `UPDATE mm_fleet_nodes SET state = $2 WHERE mm_node_id = $1`. -/
def World.setNodeState (node : NodeId) (state : NodeState) (out : DbOutcome) : World :=
  if out.applied then
    match w.nodes[node]? with
    | some r => { w with nodes := w.nodes.insert node { r with state := state } }
    | none => w
  else w

/-- `DELETE FROM mm_fleet_desired WHERE mm_node_id = $1`. -/
def World.deleteDesired (node : NodeId) (out : DbOutcome) : World :=
  if out.applied && w.desired.contains node then
    { w with desired := w.desired.erase node }.log (.droppedDesired node)
  else w

/-! ## Replacing the desired set of one broadcast -/

/-- The row of a desired node, unless its deadline and ownership disagree. -/
def DesiredNode.toRow (d : DesiredNode) (now : DateTime) : Except StoreError DesiredRow :=
  match ho : d.ownership.requiresDestroyDeadline, hd : d.destroyAfterSecs with
  | true, none => .error (.rentedWithoutDeadline d.mmNodeId)
  | false, some _ => .error (.nonRentedWithDeadline d.mmNodeId d.ownership)
  | true, some secs =>
    .ok ⟨d.flavor, d.ownership, d.region, d.size, some d.broadcastId, now, some (now + seconds secs.toNat), by simp [ho]⟩
  | false, none => .ok ⟨d.flavor, d.ownership, d.region, d.size, some d.broadcastId, now, none, by simp [ho]⟩

/-- Check the whole batch before anything is written. -/
def desiredRows (desired : List DesiredNode) (now : DateTime) : Except StoreError (List (NodeId × DesiredRow)) :=
  desired.mapM fun d => (d.toRow now).map fun r => (d.mmNodeId, r)

/-- `INSERT … ON CONFLICT (mm_node_id) DO UPDATE`, which keeps `requested_at`. -/
def World.upsertDesired (row : NodeId × DesiredRow) : World :=
  let requestedAt := match w.desired[row.1]? with
    | some old => old.requestedAt
    | none => row.2.requestedAt
  { w with desired := w.desired.insert row.1 { row.2 with requestedAt := requestedAt } }.log (.wroteDesired row.1)

/-- `DELETE … WHERE broadcast_id = $1 AND NOT (mm_node_id = ANY($2))`. -/
def World.deleteUndesired (broadcastId : String) (keep : List NodeId) : World :=
  { w with desired := w.desired.filter fun id r => !(r.broadcastId == some broadcastId) || keep.contains id }

/-- `DesiredStore::upsert_for_broadcast`: one transaction. -/
def World.upsertForBroadcast (broadcastId : String) (desired : List DesiredNode) (now : DateTime)
    (out : DbOutcome) : World × Except StoreError Unit :=
  match desiredRows desired now with
  | .error e => (w, .error e)
  | .ok rows =>
    let w' := rows.foldl World.upsertDesired (w.deleteUndesired broadcastId (desired.map DesiredNode.mmNodeId))
    (if out.applied then w' else w,
      match out.error? with
      | some m => .error (.db m)
      | none => .ok ())

/-! ## Teardown -/

/-- What the database and the provider answer during one teardown. -/
structure TeardownIo where
  deleteRow : DbOutcome
  destroy : Except ProviderError Unit
  setState : DbOutcome

/-- `set_node_state(node, Destroying).await?`, then the provider's error. -/
def World.failTeardown (node : NodeId) (source : ProviderError) (out : DbOutcome) :
    World × Except StoreError Unit :=
  let w := w.setNodeState node .destroying out
  match out.error? with
  | some m => (w, .error (.db m))
  | none => (w, .error (.provider node source))

/-- `set_node_state(node, Gone).await?`, then `Ok`. -/
def World.finishTeardown (node : NodeId) (out : DbOutcome) : World × Except StoreError Unit :=
  let w := w.setNodeState node .gone out
  match out.error? with
  | some m => (w, .error (.db m))
  | none => (w.log (.tornDown node), .ok ())

/-- `DesiredStore::teardown`: refuse, delete the row, call the provider, record. -/
def World.teardown (target : TeardownTarget) (now : DateTime) (io : TeardownIo) :
    World × Except StoreError Unit :=
  if !target.ownership.isReapable then (w, .error (.notReapable target.mmNodeId target.ownership))
  else
    let w := w.deleteDesired target.mmNodeId io.deleteRow
    match io.deleteRow.error? with
    | some m => (w, .error (.db m))
    | none =>
      match target.providerId with
      -- No handle: the machine, if any, is the orphan sweeper's problem.
      | none => w.finishTeardown target.mmNodeId io.setState
      | some providerId =>
        let w := w.log (.destroy ⟨providerId, w.loadNodes, [], now, 0⟩)
        match io.destroy with
        | .ok () => w.finishTeardown target.mmNodeId io.setState
        | .error source => w.failTeardown target.mmNodeId source io.setState

end

end MatrixMedia.Fleet
