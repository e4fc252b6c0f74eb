import MatrixMedia.Lib.Chrono
import MatrixMedia.Lib.U32

/-!
# Fleet vocabulary (`mm-core/src/fleet/mod.rs`, `mm-core/src/fleet/billing.rs`)

The types the planner, the runner and the sweepers share, and how a provider charges for
a node. `u32` values are `UInt32`; an `as u32` cast and `+` wrap as they do in a release
build.
-/

namespace MatrixMedia.Fleet
open Lib.Chrono Lib.U32

/-- `NodeId`, the primary key of both fleet tables and the Terraform `for_each` key. -/
abbrev NodeId := String

/-- How we came to have a machine. -/
inductive Ownership where
  | owned
  | leased
  | rented
deriving DecidableEq, Repr

/-- The single guard behind every destroy path. -/
def Ownership.isReapable : Ownership → Bool
  | .rented => true
  | _ => false

/-- Must a node carry a `destroy_deadline`? -/
def Ownership.requiresDestroyDeadline (o : Ownership) : Bool := o.isReapable

def Ownership.asStr : Ownership → String
  | .owned => "owned"
  | .leased => "leased"
  | .rented => "rented"

inductive NodeFlavor where
  | origin
  | fanout
  | edge
  | transcode
deriving DecidableEq, Repr

/-- Does this flavor serve WebRTC viewers directly? -/
def NodeFlavor.servesWebrtcViewers : NodeFlavor → Bool
  | .origin => true
  | .fanout => true
  | _ => false

def NodeFlavor.asStr : NodeFlavor → String
  | .origin => "origin"
  | .fanout => "fanout"
  | .edge => "edge"
  | .transcode => "transcode"

inductive NodeState where
  | requested
  | booting
  | healthy
  | draining
  | destroying
  | gone
deriving DecidableEq, Repr

/-- A node as mm-core currently understands it. -/
structure FleetNode where
  id : NodeId
  flavor : NodeFlavor
  ownership : Ownership
  state : NodeState
  viewerCapacity : UInt32
  viewersCurrent : UInt32
deriving DecidableEq

/-- Spare viewer slots, saturating at zero. -/
def FleetNode.headroom (n : FleetNode) : UInt32 := saturatingSub n.viewerCapacity n.viewersCurrent

/-! ## Billing periods -/

/-- The granularity a provider charges at. -/
inductive BillingIncrement where
  | perSecond
  | perMinute
  | perHour
deriving DecidableEq, Repr

def BillingIncrement.seconds : BillingIncrement → Int
  | .perSecond => 1
  | .perMinute => 60
  | .perHour => 3600

def BillingIncrement.worthAligningTeardown : BillingIncrement → Bool
  | .perHour => true
  | _ => false

/-- The next instant at which a new period would begin. -/
def nextPeriodBoundary (increment : BillingIncrement) (startedAt now : DateTime) : DateTime :=
  let unit := increment.seconds
  let elapsed := numSeconds (now - startedAt)
  if elapsed < 0 then startedAt
  else
    let periods := elapsed / unit + 1
    startedAt + seconds (periods * unit)

/-- When a node past its deadline should be destroyed; `none` means now. -/
def alignedTeardownAt (increment : BillingIncrement) (billingStartedAt : Option DateTime)
    (destroyDeadline now : DateTime) : Option DateTime :=
  if !increment.worthAligningTeardown then none
  else
    match billingStartedAt with
    | none => none
    | some startedAt =>
      let boundary := nextPeriodBoundary increment startedAt destroyDeadline
      if now < boundary then some boundary else none

end MatrixMedia.Fleet
