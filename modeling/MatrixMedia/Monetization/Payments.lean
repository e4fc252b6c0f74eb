import MatrixMedia.Paywall.Content

/-!
# Donations, tiers and subscriptions

The tables of `mm-api/src/monetization.rs` (migrations V004, V005, V009, V011, V018, V025 and
V032) and the calls that its handlers make: SQL statements of `mm-db/src/postgres.rs` and of
the handlers themselves, LNBits, Stripe, a creator's own Lightning wallet, Matrix and the
metrics. Each SQL statement is one request.

Three fields are kept for the results only, no code reads them: `announced` has the donation
events sent to Matrix, each with the payment hash that was verified before it, `counted` the
donations added to `donations_amount_cents_total`, and `checkouts` the checkout session each
subscription was inserted with.
-/

namespace MatrixMedia.Monetization
open Lib Lib.Chrono Lib.Interaction
open Std (TreeMap)
open Streams (Stream StreamTable)
open Paywall (Room Tables Tier Subscription)

/-! ## Amounts and texts -/

structure DonationTier where
  name : String
  color : String
  pinDurationSecs : Nat
deriving DecidableEq

/-- `tier_for_amount`; a negative amount is in none of the ranges. -/
def tierForAmount (cents : Int) : DonationTier :=
  if cents < 0 then ⟨"gold", "#FFD700", 300⟩
  else if cents ≤ 199 then ⟨"blue", "#1E88E5", 30⟩
  else if cents ≤ 499 then ⟨"green", "#43A047", 60⟩
  else if cents ≤ 999 then ⟨"yellow", "#FDD835", 90⟩
  else if cents ≤ 2499 then ⟨"orange", "#FB8C00", 120⟩
  else if cents ≤ 4999 then ⟨"magenta", "#E91E63", 180⟩
  else if cents ≤ 9999 then ⟨"red", "#E53935", 240⟩
  else ⟨"gold", "#FFD700", 300⟩

/-- `usd_cents_to_sats`, at 1500 sats a dollar. Doubles are exact at these sizes. -/
def usdCentsToSats (cents : Int) : Int := 15 * cents

/-- `sats_to_usd_cents`: the nearest cent; no amount of sats is halfway between two. -/
def satsToUsdCents (sats : Int) : Int := (2 * sats + 15) / 30

theorem satsToUsdCents_usdCentsToSats (cents : Int) : satsToUsdCents (usdCentsToSats cents) = cents := by
  unfold satsToUsdCents usdCentsToSats
  omega

/-- `char::is_control`. -/
def isControl (c : Char) : Bool := c.toNat < 32 || (127 ≤ c.toNat && c.toNat < 160)

def escapeHtml (c : Char) : List Char :=
  if c = '&' then "&amp;".toList else if c = '<' then "&lt;".toList else if c = '>' then "&gt;".toList else [c]

/-- `sanitize_display_text`: the text is cut before it is escaped. -/
def sanitizeDisplayText (input : String) (maxLen : Nat) : String :=
  String.ofList (((input.toList.filter fun c => !isControl c || c = '\n').take maxLen).flatMap escapeHtml)

/-! ## Rows -/

inductive DonationStatus where
  | pending
  | succeeded
  | failed
  | refunded
deriving DecidableEq

/-- A row of `mm_donations`, but for its id, its idempotency key and its time. -/
structure Donation where
  streamId : String
  donorUserId : String
  recipientUserId : String
  amountCents : Int
  currency : String
  message : Option String
  tier : String
  pinDurationSecs : Nat
  stripeSessionId : Option String
  stripePaymentIntentId : Option String
  status : DonationStatus
  bolt11 : Option String
  paymentHash : Option String
  /-- Not a field of the struct that rows are read into. -/
  providerPaymentId : Option String
deriving DecidableEq

structure CreatorProfile where
  stripeAccountId : Option String
  onboardingComplete : Bool
  lightningAddress : Option String
deriving DecidableEq

/-- What LNBits keeps of an invoice. -/
structure Invoice where
  amountSats : Int
  /-- Metadata that LNBits echoes in its webhook. -/
  extra : List (String × String)
deriving DecidableEq

/-- `DonationEventContent`, without the constant version. -/
structure DonationEventContent where
  donationId : String
  streamId : String
  donorDisplayName : String
  amountCents : Int
  currency : String
  message : Option String
  tier : String
  pinDurationSecs : Nat
  color : String
deriving DecidableEq

structure Announcement where
  content : DonationEventContent
  /-- The payment hash that LNBits said was settled. -/
  verified : Option String
deriving DecidableEq

structure PaymentState where
  utcNow : DateTime
  tables : Tables
  donations : TreeMap String Donation
  creators : TreeMap String CreatorProfile
  streams : StreamTable
  rooms : TreeMap Int Room
  suspended : List String
  /-- `mm_webhook_log`: the events by id, with their type. -/
  webhookLog : TreeMap String String
  /-- The invoices of LNBits by payment hash. -/
  invoices : TreeMap String Invoice
  /-- The payment hashes that are settled. -/
  settled : List String
  announced : List Announcement
  counted : List String
  checkouts : TreeMap String String

/-! ## Calls -/

inductive CheckoutMode where
  | payment
  | setup
  | subscription
deriving DecidableEq

inductive PaymentRequest where
  | isUserSuspended (user : String)
  | getStream (id : String)
  | getRoom (id : Int)
  | getCreatorProfile (user : String)
  /-- `LnurlClient::request_invoice`. -/
  | requestInvoice (address : String) (amountMsat : Int) (comment : Option String)
  /-- LNBits makes an invoice with this payment hash. -/
  | createInvoice (hash : String) (amountSats : Int) (extra : List (String × String))
  /-- Stripe makes a checkout session with this id. -/
  | createSession (id : String) (mode : CheckoutMode) (metadata : List (String × String))
  | insertDonation (id : String) (row : Donation)
  | getDonation (id : String)
  | updateDonationStatus (session : String) (status : DonationStatus) (paymentIntent : Option String)
  | checkPayment (hash : String)
  /-- The update of `lnbits_webhook`. -/
  | settleDonation (id hash : String)
  | recordWebhookEvent (id eventType : String)
  | countDonation (id : String)
  | joinRoom (matrixRoomId : String)
  | sendDonationEvent (matrixRoomId : String) (content : DonationEventContent) (verified : Option String)
  | sendNotice (matrixRoomId text : String)
  | setCreatorOnboardingComplete (account : String)
  | hasRoomTiers (creator : String) (room : Option String)
  | listTiers (creator : String) (room : Option String)
  | getCreatorTiers (creator : String)
  | insertTier (id : String) (row : Tier)
  | setTierPermissions (id : String) (permissions : Json)
  | getActiveTier (id : String)
  | insertSubscription (id : String) (row : Subscription)
  | activateSubscription (session newId : String) (room : Option String)
  | getSubscription (id : String)
  /-- Stripe cancels its subscription. -/
  | cancelAtStripe (stripeSubscriptionId : String)
  | cancelSubscription (id : String)
  | deleteSubscription (stripeSubscriptionId : String)
  /-- `EntitlementService::invalidate`; the cache is in `Paywall/Entitlement.lean`. -/
  | invalidate (subscriber creator : String)

abbrev PaymentRequest.Reply : PaymentRequest → Type
  | .isUserSuspended _ | .checkPayment _ | .recordWebhookEvent _ _ | .hasRoomTiers _ _ => Except String Bool
  | .getStream _ => Except String (Option Stream)
  | .getRoom _ => Except String (Option Room)
  | .getCreatorProfile _ => Except String (Option CreatorProfile)
  | .getDonation _ | .updateDonationStatus .. => Except String (Option (String × Donation))
  | .listTiers _ _ | .getCreatorTiers _ => Except String (List Tier)
  | .getActiveTier _ => Except String (Option Tier)
  | .getSubscription _ => Except String (Option Subscription)
  | .activateSubscription .. | .deleteSubscription _ => Except String (Option (String × Subscription))
  | .countDonation _ | .invalidate _ _ => Unit
  | .requestInvoice .. | .createInvoice .. | .createSession .. | .insertDonation _ _ | .settleDonation _ _
  | .joinRoom _ | .sendDonationEvent .. | .sendNotice _ _ | .setCreatorOnboardingComplete _ | .insertTier _ _
  | .setTierPermissions _ _ | .insertSubscription _ _ | .cancelAtStripe _ | .cancelSubscription _ => Except String Unit

/-- What others do: time passes, an invoice is paid, streams, rooms and profiles change, an
account is suspended, a creator changes or closes a tier. -/
inductive PaymentMove where
  | pass (utcNow : DateTime)
  | settle (hash : String)
  | setStream (id : String) (row : Stream)
  | setRoom (id : Int) (row : Room)
  | setCreator (user : String) (profile : CreatorProfile)
  | suspend (users : List String)
  | updateTier (id name : String) (permissions : Json) (isActive : Bool)

namespace PaymentState

def start (utcNow : DateTime) : PaymentState := ⟨utcNow, ⟨∅, ∅⟩, ∅, ∅, ∅, ∅, [], ∅, ∅, [], [], [], ∅⟩

/-- The fields of the struct `Donation`, which sqlx reads by name. -/
def donationFields : List String :=
  ["id", "stream_id", "donor_user_id", "recipient_user_id", "amount_cents", "currency", "message", "tier", "pin_duration_secs",
    "stripe_session_id", "stripe_payment_intent_id", "status", "idempotency_key", "created_at", "bolt11", "payment_hash"]

/-- The columns that `get_donation` selects and `update_donation_status` returns. -/
def donationColumns : List String :=
  ["id", "stream_id", "donor_user_id", "recipient_user_id", "amount_cents", "currency", "message", "tier", "pin_duration_secs",
    "stripe_session_id", "stripe_payment_intent_id", "status", "idempotency_key", "created_at"]

/-- `FromRow`: every field has its column in the result. -/
def decodeDonation (columns : List String) (row : String × Donation) : Except String (String × Donation) :=
  match donationFields.find? fun field => !columns.contains field with
  | some field => .error ("no column found for name: " ++ field)
  | none => .ok row

/-- `fetch_optional` for donations. -/
def fetchDonation : Option (String × Donation) → Except String (Option (String × Donation))
  | none => .ok none
  | some row => (decodeDonation donationColumns row).map some

/-- `bolt11` and `payment_hash` are fields and in no list of columns, so no row is ever read. -/
theorem fetchDonation_ne_some (found : Option (String × Donation)) (row : String × Donation) : fetchDonation found ≠ .ok (some row) := by
  cases found with
  | none => exact fun h => nomatch Except.ok.inj h
  | some found => exact fun h => nomatch h

/-- A call that takes effect leaves `s'`. -/
def write {α : Type} (s s' : PaymentState) (reply : Except String α) (fate : CallFate) : PaymentState × Except String α :=
  (if fate.applied then s' else s, fate.answer reply)

section
variable (s : PaymentState)

def writeUnit (result : Except String PaymentState) (fate : CallFate) : PaymentState × Except String Unit :=
  match result with
  | .ok s' => s.write s' (.ok ()) fate
  | .error e => (s, fate.answer (.error e))

def checkViolated : String := "new row violates check constraint"

/-- `INSERT INTO mm_donations`, with the CHECKs of V004 and V009. -/
def insertDonation (id : String) (row : Donation) : Except String PaymentState :=
  if (s.donations[id]?).isSome then .error Paywall.ContentState.duplicateKey
  else if row.amountCents < 100 ∨ 100000 < row.amountCents then .error checkViolated
  else if (row.message.any fun m => 150 < m.length) then .error checkViolated
  else .ok { s with donations := s.donations.insert id row }

/-- LNBits never gives a payment hash twice. -/
def createInvoice (hash : String) (invoice : Invoice) : Except String PaymentState :=
  if (s.invoices[hash]?).isSome then .error "duplicate payment hash" else .ok { s with invoices := s.invoices.insert hash invoice }

/-- The update of `update_donation_status`, on one row. -/
def setStatus (session : String) (status : DonationStatus) (paymentIntent : Option String) (d : Donation) : Donation :=
  if d.stripeSessionId = some session then
    { d with status := status, stripePaymentIntentId := paymentIntent.orElse fun _ => d.stripePaymentIntentId }
  else d

def donationOf (session : String) : Option (String × Donation) :=
  s.donations.toList.find? fun x => x.2.stripeSessionId = some session

def updateDonations (f : Donation → Donation) : PaymentState := { s with donations := s.donations.map fun _ d => f d }

/-- One room's ladder of a creator, or the default one: the active tiers by level. -/
def ladder (creator : String) (room : Option String) : List Tier :=
  ((s.tables.tiers.toList.map Prod.snd).filter fun t => t.creatorUserId = some creator ∧ t.roomId = room ∧ t.isActive).insertionSort
    fun x y => x.tierLevel ≤ y.tierLevel

def creatorTiers (creator : String) : List Tier :=
  ((s.tables.tiers.toList.map Prod.snd).filter fun t => t.creatorUserId = some creator).insertionSort fun x y => x.tierLevel ≤ y.tierLevel

def putTier (id : String) (row : Tier) : PaymentState :=
  { s with tables := { s.tables with tiers := s.tables.tiers.insert id row } }

def changeTier (id : String) (f : Tier → Tier) : PaymentState :=
  { s with tables := { s.tables with tiers := s.tables.tiers.modify id f } }

/-- `INSERT INTO mm_subscription_tiers`: the trigger of V009, the CHECK of V032, the unique
index of V025. -/
def insertTier (id : String) (row : Tier) : Except String PaymentState :=
  if 5 ≤ (s.tables.tiers.toList.countP fun x => x.2.creatorUserId = row.creatorUserId ∧ x.2.isActive) then
    .error "Maximum 5 active tiers per creator"
  else if row.tierLevel < 0 ∨ 5 < row.tierLevel then .error checkViolated
  else if (s.tables.tiers[id]?).isSome ∨ ∃ x ∈ s.tables.tiers.toList, x.2.creatorUserId = row.creatorUserId ∧
      x.2.roomId.getD "" = row.roomId.getD "" ∧ x.2.tierLevel = row.tierLevel then .error Paywall.ContentState.duplicateKey
  else .ok (s.putTier id row)

def updateSubscriptions (f : Subscription → Subscription) : PaymentState :=
  { s with tables := { s.tables with subscriptions := s.tables.subscriptions.map fun _ x => f x } }

/-- `INSERT INTO mm_subscriptions`: its key, the unique index of V025 and the tier it refers
to. -/
def insertSubscription (id : String) (row : Subscription) : Except String PaymentState :=
  if (s.tables.subscriptions[id]?).isSome ∨ ∃ x ∈ s.tables.subscriptions.toList, x.2.subscriberUserId = row.subscriberUserId ∧
      x.2.creatorUserId = row.creatorUserId ∧ x.2.roomId.getD "" = row.roomId.getD "" then .error Paywall.ContentState.duplicateKey
  else if (s.tables.tiers[row.tierId]?).isNone then .error "insert violates foreign key constraint"
  else .ok { s with
    tables := { s.tables with subscriptions := s.tables.subscriptions.insert id row }
    checkouts := s.checkouts.insert id (row.stripeSubscriptionId.getD "") }

/-- `WHERE stripe_subscription_id = $3 AND status = 'incomplete'`. -/
def awaits (session : String) (x : Subscription) : Bool := x.stripeSubscriptionId = some session ∧ x.status = .incomplete

def days (n : Int) : Duration := seconds (n * 86400)

/-- The update of `handle_subscription_checkout_completed`, on one row. -/
def activate (session newId : String) (periodEnd : DateTime) (room : Option String) (x : Subscription) : Subscription :=
  if awaits session x then
    { x with status := .active, stripeSubscriptionId := some newId, currentPeriodEnd := periodEnd, roomId := x.roomId.orElse fun _ => room }
  else x

/-- `WHERE stripe_subscription_id = $1 AND status != 'cancelled'`. -/
def runsAs (stripeId : String) (x : Subscription) : Bool := x.stripeSubscriptionId = some stripeId ∧ x.status ≠ .cancelled

/-- The update of `handle_subscription_deleted`, on one row. -/
def cancelStripe (stripeId : String) (x : Subscription) : Subscription := if runsAs stripeId x then { x with status := .cancelled } else x

/-- `RETURNING id, subscriber_user_id, creator_user_id` of the first row. -/
def subscriptionWhere (p : Subscription → Bool) : Option (String × Subscription) :=
  s.tables.subscriptions.toList.find? fun x => p x.2

def request : (q : PaymentRequest) → CallFate → PaymentState × q.Reply
  | .isUserSuspended user, fate => (s, fate.answer (.ok (s.suspended.contains user)))
  | .getStream id, fate => (s, fate.answer (.ok s.streams[id]?))
  | .getRoom id, fate => (s, fate.answer (.ok s.rooms[id]?))
  | .getCreatorProfile user, fate => (s, fate.answer (.ok s.creators[user]?))
  | .requestInvoice _ _ _, fate | .createSession _ _ _, fate | .joinRoom _, fate | .sendNotice _ _, fate
  | .cancelAtStripe _, fate => (s, fate.answer (.ok ()))
  | .createInvoice hash amount extra, fate => s.writeUnit (s.createInvoice hash ⟨amount, extra⟩) fate
  | .insertDonation id row, fate => s.writeUnit (s.insertDonation id row) fate
  | .getDonation id, fate => (s, fate.answer (fetchDonation (s.donations[id]?.map fun d => (id, d))))
  | .updateDonationStatus session status intent, fate =>
    let s' := s.updateDonations (setStatus session status intent)
    -- the update has run when the row that it returns cannot be read
    s.write s' (fetchDonation (s'.donationOf session)) fate
  | .checkPayment hash, fate => (s, fate.answer (.ok (s.settled.contains hash)))
  | .settleDonation id hash, fate =>
    s.writeUnit (.ok { s with donations := s.donations.modify id fun d =>
      { d with status := .succeeded, providerPaymentId := some hash } }) fate
  | .recordWebhookEvent id eventType, fate =>
    if (s.webhookLog[id]?).isSome then (s, fate.answer (.ok false))
    else s.write { s with webhookLog := s.webhookLog.insert id eventType } (.ok true) fate
  | .countDonation id, _ => ({ s with counted := id :: s.counted }, ())
  | .sendDonationEvent _ content verified, fate =>
    s.writeUnit (.ok { s with announced := ⟨content, verified⟩ :: s.announced }) fate
  | .setCreatorOnboardingComplete account, fate =>
    s.writeUnit (.ok { s with creators := s.creators.map fun _ c =>
      if c.stripeAccountId = some account then { c with onboardingComplete := true } else c }) fate
  | .hasRoomTiers creator room, fate => (s, fate.answer (.ok (room.isSome && !(s.ladder creator room).isEmpty)))
  | .listTiers creator room, fate => (s, fate.answer (.ok (s.ladder creator room)))
  | .getCreatorTiers creator, fate => (s, fate.answer (.ok (s.creatorTiers creator)))
  | .insertTier id row, fate => s.writeUnit (s.insertTier id row) fate
  | .setTierPermissions id permissions, fate =>
    s.writeUnit (.ok (s.changeTier id fun t => { t with permissions := permissions })) fate
  | .getActiveTier id, fate => (s, fate.answer (.ok (s.tables.tiers[id]?.filter fun t => t.isActive)))
  | .insertSubscription id row, fate => s.writeUnit (s.insertSubscription id row) fate
  | .activateSubscription session newId room, fate =>
    s.write (s.updateSubscriptions (activate session newId (s.utcNow + days 30) room)) (.ok (s.subscriptionWhere (awaits session))) fate
  | .getSubscription id, fate => (s, fate.answer (.ok s.tables.subscriptions[id]?))
  | .cancelSubscription id, fate =>
    s.writeUnit (.ok { s with tables := { s.tables with
      subscriptions := s.tables.subscriptions.modify id fun x => { x with status := .cancelled } } }) fate
  | .deleteSubscription stripeId, fate =>
    s.write (s.updateSubscriptions (cancelStripe stripeId)) (.ok (s.subscriptionWhere (runsAs stripeId))) fate
  | .invalidate _ _, _ => (s, ())

def move : PaymentMove → PaymentState
  | .pass now => { s with utcNow := now }
  | .settle hash => { s with settled := hash :: s.settled }
  | .setStream id row => { s with streams := s.streams.insert id row }
  | .setRoom id row => { s with rooms := s.rooms.insert id row }
  | .setCreator user profile => { s with creators := s.creators.insert user profile }
  | .suspend users => { s with suspended := users }
  | .updateTier id name permissions isActive =>
    s.changeTier id fun t => { t with name := name, permissions := permissions, isActive := isActive }

end

/-! ## What a request can change -/

/-- What a request can change. -/
inductive Effect (s : PaymentState) : PaymentRequest → PaymentState → Prop where
  | none {q : PaymentRequest} : Effect s q s
  | invoiced {hash : String} {amount : Int} {extra : List (String × String)} (fresh : s.invoices[hash]? = Option.none) :
      Effect s (.createInvoice hash amount extra) { s with invoices := s.invoices.insert hash ⟨amount, extra⟩ }
  | donated {id : String} {row : Donation} (fresh : s.donations[id]? = Option.none) :
      Effect s (.insertDonation id row) { s with donations := s.donations.insert id row }
  | updated {session : String} {status : DonationStatus} {intent : Option String} :
      Effect s (.updateDonationStatus session status intent) (s.updateDonations (setStatus session status intent))
  | settled {id hash : String} : Effect s (.settleDonation id hash)
      { s with donations := s.donations.modify id fun d => { d with status := .succeeded, providerPaymentId := some hash } }
  | logged {id eventType : String} (fresh : s.webhookLog[id]? = Option.none) :
      Effect s (.recordWebhookEvent id eventType) { s with webhookLog := s.webhookLog.insert id eventType }
  | counted {id : String} : Effect s (.countDonation id) { s with counted := id :: s.counted }
  | announced {room : String} {content : DonationEventContent} {verified : Option String} :
      Effect s (.sendDonationEvent room content verified) { s with announced := ⟨content, verified⟩ :: s.announced }
  | onboarded {account : String} : Effect s (.setCreatorOnboardingComplete account)
      { s with creators := s.creators.map fun _ c =>
        if c.stripeAccountId = some account then { c with onboardingComplete := true } else c }
  | tier {id : String} {row : Tier} (fresh : s.tables.tiers[id]? = Option.none) : Effect s (.insertTier id row) (s.putTier id row)
  | permitted {id : String} {permissions : Json} : Effect s (.setTierPermissions id permissions)
      (s.changeTier id fun t => { t with permissions := permissions })
  | subscribed {id : String} {row : Subscription} (fresh : s.tables.subscriptions[id]? = Option.none) :
      Effect s (.insertSubscription id row)
        { s with
          tables := { s.tables with subscriptions := s.tables.subscriptions.insert id row }
          checkouts := s.checkouts.insert id (row.stripeSubscriptionId.getD "") }
  | activated {session newId : String} {room : Option String} : Effect s (.activateSubscription session newId room)
      (s.updateSubscriptions (activate session newId (s.utcNow + days 30) room))
  | cancelled {id : String} : Effect s (.cancelSubscription id)
      { s with tables := { s.tables with subscriptions := s.tables.subscriptions.modify id fun x => { x with status := .cancelled } } }
  | deleted {stripeId : String} : Effect s (.deleteSubscription stripeId) (s.updateSubscriptions (cancelStripe stripeId))

/-- A write leaves what it found or what its effect is. -/
theorem Effect.write {α : Type} {s s' : PaymentState} {q} (reply : Except String α) (fate : CallFate)
    (h : s.Effect q s') : s.Effect q (s.write s' reply fate).1 := by
  unfold PaymentState.write
  cases fate.applied with
  | true => exact h
  | false => exact .none

theorem Effect.writeUnit {s : PaymentState} {q result} (fate : CallFate)
    (h : ∀ s', result = .ok s' → s.Effect q s') : s.Effect q (s.writeUnit result fate).1 := by
  cases result with
  | ok s' => exact (h s' rfl).write _ fate
  | error e => exact .none

/-- Said once for every request. -/
theorem request_effect (s : PaymentState) (q : PaymentRequest) (fate : CallFate) : s.Effect q (s.request q fate).1 := by
  cases q with
  | createInvoice hash amount extra =>
    refine Effect.writeUnit fate fun s' h => ?_
    unfold createInvoice at h
    split at h
    · cases h
    rename_i hfresh
    cases h
    exact .invoiced (by simpa using hfresh)
  | insertDonation id row =>
    refine Effect.writeUnit fate fun s' h => ?_
    unfold insertDonation at h
    split at h
    · cases h
    rename_i hfresh
    split at h
    · cases h
    split at h
    · cases h
    cases h
    exact .donated (by simpa using hfresh)
  | updateDonationStatus session status intent => exact Effect.updated.write _ fate
  | settleDonation id hash => exact Effect.settled.write _ fate
  | recordWebhookEvent id eventType =>
    simp only [request]
    split
    · exact .none
    rename_i hfresh
    exact (Effect.logged (by simpa using hfresh)).write _ fate
  | countDonation id => exact .counted
  | sendDonationEvent room content verified => exact Effect.announced.write _ fate
  | setCreatorOnboardingComplete account => exact Effect.onboarded.write _ fate
  | insertTier id row =>
    refine Effect.writeUnit fate fun s' h => ?_
    unfold insertTier at h
    split at h
    · cases h
    split at h
    · cases h
    split at h
    · cases h
    rename_i hfresh
    cases h
    exact .tier (by simpa using fun hsome => hfresh (.inl hsome))
  | setTierPermissions id permissions => exact Effect.permitted.write _ fate
  | insertSubscription id row =>
    refine Effect.writeUnit fate fun s' h => ?_
    unfold insertSubscription at h
    split at h
    · cases h
    rename_i hfresh
    split at h
    · cases h
    cases h
    exact .subscribed (by simpa using fun hsome => hfresh (.inl hsome))
  | activateSubscription session newId room => exact Effect.activated.write _ fate
  | cancelSubscription id => exact Effect.cancelled.write _ fate
  | deleteSubscription stripeId => exact Effect.deleted.write _ fate
  | _ => exact .none

end PaymentState

def paymentService : Service PaymentState CallFate PaymentMove PaymentRequest PaymentRequest.Reply where
  request := PaymentState.request
  move := PaymentState.move

abbrev PaymentAction (α : Type) : Type := Prog PaymentRequest PaymentRequest.Reply α

end MatrixMedia.Monetization
