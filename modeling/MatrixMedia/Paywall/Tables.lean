import MatrixMedia.Lib.Chrono
import MatrixMedia.Lib.Json
import MatrixMedia.Lib.Table
import Mathlib.Data.List.Sort

/-!
# Tiers and subscriptions

`mm_subscription_tiers` and `mm_subscriptions` (migrations V005, V025, V027 and V032), and
the two queries that decide what a subscription is worth: `query_entitlement`
(`mm-payment/src/entitlement.rs`) gives the level, `resolve_with_pool`
(`mm-api/src/middleware/tier_gate.rs`) the permissions. Both order the rows and take the
first; rows that the order leaves equal come in the order of their ids.
-/

namespace MatrixMedia.Paywall
open Lib Lib.Chrono
open Std (TreeMap)

/-! ## Permissions -/

/-- `TierPermissions` of `mm-core/src/permissions.rs`. -/
structure TierPermissions where
  canRead : Bool
  canSend : Bool
  canReact : Bool
  canComment : Bool
  canWatchRecordings : Bool
  canJoinLive : Bool
  canTip : Bool
  canManageRoom : Bool
deriving DecidableEq

namespace TierPermissions

/-- A non-subscriber reads and tips. -/
def spectatorDefault : TierPermissions := ⟨true, false, false, false, false, false, true, false⟩

/-- The names on the wire, in the order of the fields. -/
def fields : List String :=
  ["can_read", "can_send", "can_react", "can_comment", "can_watch_recordings", "can_join_live", "can_tip", "can_manage_room"]

/-- A missing field is false; one that is not a boolean makes the blob corrupt. -/
def readField : Option Json → Option Bool
  | none => some false
  | some v => v.asBool

def ofFields (read : Nat → Option Bool) : Option TierPermissions := do
  return ⟨← read 0, ← read 1, ← read 2, ← read 3, ← read 4, ← read 5, ← read 6, ← read 7⟩

/-- `serde_json::from_value`: an object by name, an array by position. -/
def fromValue : Json → Option TierPermissions
  | .obj members => ofFields fun i => readField ((fields[i]?).bind fun name => members.lookup name)
  | .arr items => if items.length ≤ fields.length then ofFields fun i => readField items[i]? else none
  | _ => none

/-- `perms_from_blob`: a corrupt blob is worth a spectator's permissions. -/
def fromBlob (blob : Json) : TierPermissions := (fromValue blob).getD spectatorDefault

end TierPermissions

/-! ## Tables -/

structure Tier where
  /-- None for a platform default. -/
  creatorUserId : Option String
  name : String
  tierLevel : Int
  isActive : Bool
  roomId : Option String
  permissions : Json
deriving DecidableEq

inductive SubscriptionStatus where
  | active
  | incomplete
  | pastDue
  | cancelled
  | expired
deriving DecidableEq

structure Subscription where
  subscriberUserId : String
  creatorUserId : String
  tierId : String
  status : SubscriptionStatus
  stripeSubscriptionId : Option String
  currentPeriodEnd : DateTime
  roomId : Option String
deriving DecidableEq

/-- Both tables, by id. -/
structure Tables where
  tiers : TreeMap String Tier
  subscriptions : TreeMap String Subscription

/-- `status = 'active' AND current_period_end > now()`. -/
def Subscription.Active (s : Subscription) (now : DateTime) : Prop := s.status = .active ∧ now < s.currentPeriodEnd

instance Subscription.decidableActive (s : Subscription) (now : DateTime) : Decidable (s.Active now) :=
  inferInstanceAs (Decidable (_ ∧ _))

/-- The active subscriptions of a user to a creator, each with its tier. -/
def Tables.paid (t : Tables) (now : DateTime) (subscriber creator : String) : List (Subscription × Tier) :=
  t.subscriptions.toList.filterMap fun (_, s) =>
    if s.subscriberUserId = subscriber ∧ s.creatorUserId = creator ∧ s.Active now then
      (t.tiers[s.tierId]?).map fun tier => (s, tier)
    else none

theorem Tables.mem_paid {t : Tables} {now subscriber creator x} :
    x ∈ t.paid now subscriber creator ↔ (∃ id : String, t.subscriptions[id]? = some x.1) ∧ t.tiers[x.1.tierId]? = some x.2 ∧
      x.1.subscriberUserId = subscriber ∧ x.1.creatorUserId = creator ∧ x.1.Active now := by
  obtain ⟨s, tier⟩ := x
  simp only [Tables.paid, List.mem_filterMap, Prod.exists]
  constructor
  · rintro ⟨id, s', hmem, heq⟩
    split at heq
    · rename_i hrow
      obtain ⟨tier', htier, hpair⟩ := Option.map_eq_some_iff.mp heq
      cases hpair
      exact ⟨⟨id, Table.mem_toList.mp hmem⟩, htier, hrow⟩
    · cases heq
  · rintro ⟨⟨id, hid⟩, htier, hrow⟩
    exact ⟨id, s, Table.mem_toList.mpr hid, by rw [if_pos hrow, htier]; rfl⟩

/-! ## The level -/

structure Entitlement where
  tierLevel : Int
  tierName : String
  expiresAt : DateTime
deriving DecidableEq

/-- `query_entitlement`. -/
def Tables.queryEntitlement (t : Tables) (now : DateTime) (user creator : String) : Option Entitlement :=
  ((t.paid now user creator).insertionSort fun x y => y.2.tierLevel ≤ x.2.tierLevel).head?.map fun (s, tier) =>
    ⟨tier.tierLevel, tier.name, s.currentPeriodEnd⟩

/-- It comes from a row. -/
theorem Tables.mem_of_queryEntitlement {t : Tables} {now user creator e}
    (h : t.queryEntitlement now user creator = some e) :
    ∃ x ∈ t.paid now user creator, e = ⟨x.2.tierLevel, x.2.name, x.1.currentPeriodEnd⟩ := by
  obtain ⟨x, hx, rfl⟩ := Option.map_eq_some_iff.mp h
  exact ⟨x, (List.perm_insertionSort _ _).mem_iff.mp (List.mem_of_mem_head? hx), rfl⟩

/-! ## The permissions -/

/-- The subscription is for this room. -/
def inRoom (room : String) (x : Subscription × Tier) : Bool := x.1.roomId.getD "" = room

/-- The rows of the first query of `resolve_with_pool`: in the room or not bound to one. -/
def Tables.paidInRoom (t : Tables) (now : DateTime) (subscriber creator room : String) : List (Subscription × Tier) :=
  (t.paid now subscriber creator).filter fun x => x.1.roomId.getD "" = room ∨ x.1.roomId.getD "" = ""

/-- The order of that query: the room's own first, then by level. -/
def roomFirst (room : String) (x y : Subscription × Tier) : Prop :=
  inRoom room y < inRoom room x ∨ inRoom room y = inRoom room x ∧ y.2.tierLevel ≤ x.2.tierLevel

instance decidableRoomFirst (room : String) : DecidableRel (roomFirst room) :=
  fun _ _ => inferInstanceAs (Decidable (_ ∨ _))

/-- The room's tier 0 of the creator. -/
def Tables.spectator (t : Tables) (creator room : String) : Option Tier :=
  (t.tiers.toList.find? fun (_, tier) =>
    tier.creatorUserId = some creator ∧ tier.roomId.getD "" = room ∧ tier.tierLevel = 0 ∧ tier.isActive).map Prod.snd

/-- What a user without a subscription gets. -/
def Tables.unsubscribed (t : Tables) (creator room : String) (spectatorAnswers : Bool) : TierPermissions :=
  match if spectatorAnswers then t.spectator creator room else none with
  | some tier => .fromBlob tier.permissions
  | none => .spectatorDefault

/-- `resolve_with_pool`. A query that fails counts as one without a row. -/
def Tables.resolveWithPool (t : Tables) (now : DateTime) (subscriber creator room : String)
    (activeAnswers spectatorAnswers : Bool) : TierPermissions :=
  match if activeAnswers then ((t.paidInRoom now subscriber creator room).insertionSort (roomFirst room)).head? else none with
  | some (_, tier) => .fromBlob tier.permissions
  | none => t.unsubscribed creator room spectatorAnswers

end MatrixMedia.Paywall
