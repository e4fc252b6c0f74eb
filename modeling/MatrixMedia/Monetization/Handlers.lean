import MatrixMedia.Api.Handlers
import MatrixMedia.Monetization.Payments

/-!
# The payment handlers (`mm-api/src/monetization.rs`)

`create_donation`, `submit_lightning_proof`, `lnbits_webhook`, `stripe_webhook`, `create_tier`,
`create_subscription` and `cancel_subscription`, each a program over the calls of
`Monetization/Payments.lean`, in the order of the source. Ids and texts that the handlers,
the database or the providers draw at random are arguments.

Left out are the platform fees and the prices at Stripe, which nothing here reads, and the
completion of mock donations in debug builds.
-/

namespace MatrixMedia.Monetization
open Lib Lib.Chrono Lib.Interaction Api
open Paywall (Tier Subscription TierPermissions)

inductive PreimageError where
  | mismatch
  | badPreimage
  | other (e : String)
deriving DecidableEq

/-- What the deployment has, its configuration, and the parsers and hashes it relies on. -/
structure PaymentConfig where
  features : Features
  minDonationCents : Int
  maxDonationCents : Int
  paymentRegistry : Bool
  /-- The registry has the provider `lightning`. -/
  lightning : Bool
  /-- The registry has the provider `stripe`. -/
  stripe : Bool
  pgPool : Bool
  entitlementService : Bool
  stripeClient : Bool
  webhookSigningSecret : String
  /-- `Uuid::parse_str`, as the canonical text. -/
  parseUuid : String → Option String
  extractPaymentHash : String → Except String String
  verifyPreimage : String → String → Except PreimageError Unit
  /-- How fractional numbers are printed as JSON. -/
  printFloat : Rat → String

abbrev PaymentHandler (α : Type) : Type := PaymentAction (Except MMError α)

section
variable (cfg : PaymentConfig)

def PaymentConfig.requirePool : Except MMError Unit :=
  if cfg.pgPool then .ok () else .error (.internal "PG pool not initialized")

def PaymentConfig.requireRegistry : Except MMError Unit :=
  if cfg.paymentRegistry then .ok () else .error (.internal "Payment registry not initialized")

/-! ## Creating a donation -/

structure CreateDonationRequest where
  streamId : String
  amountCents : Int
  message : Option String
  paymentProvider : String
deriving DecidableEq

/-- What is drawn for one checkout: our id, LNBits' payment hash, Stripe's session id, and the
invoice or the page that the provider answers with. -/
structure CheckoutIds where
  id : String
  paymentHash : String
  sessionId : String
  url : String
deriving DecidableEq

inductive Provider where
  | lightning
  | stripe
deriving DecidableEq

/-- The provider's name is folded to lower case, here for ASCII letters. -/
def normalizeProvider (name : String) : Except MMError Provider :=
  let lower := name.toLower
  if lower = "lightning" ∨ lower = "ln" then .ok .lightning
  else if lower = "stripe" ∨ lower = "" then .ok .stripe
  else .error (.api .invalidPaymentProvider ("Unknown payment provider: " ++ lower))

/-- Stripe needs a connected account. -/
def requireOnboarded (creator : CreatorProfile) : Provider → Except MMError Unit
  | .lightning => .ok ()
  | .stripe =>
    if ¬creator.onboardingComplete then .error (.api .creatorNotOnboarded "Stream host has not completed Stripe onboarding")
    else if creator.stripeAccountId.isNone then .error (.api .creatorNotOnboarded "Stream host has no Stripe account")
    else .ok ()

/-- What a checkout leaves for the donation row. -/
structure Checkout where
  sessionId : String
  url : String
  bolt11 : Option String
  paymentHash : Option String
deriving DecidableEq

def donationMetadata (id streamId donor : String) : List (String × String) :=
  [("donation_id", id), ("stream_id", streamId), ("donor_user_id", donor)]

/-- LNURL-pay: the invoice comes from the creator's wallet, and the session is the donation. -/
def lnurlCheckout (req : CreateDonationRequest) (ids : CheckoutIds) (message : Option String) (address : String) :
    PaymentHandler Checkout :=
  let sats := usdCentsToSats req.amountCents
  if sats ≤ 0 then .ret (.error (.lightning "amount converts to <= 0 sats")) else
  .call (.requestInvoice address (sats * 1000) message) fun r =>
    orError (fun e => .lightning ("LNURL-pay " ++ address ++ ": " ++ e)) r fun _ =>
    match cfg.extractPaymentHash ids.url with
    | .error e => .ret (.error (.lightning ("LNURL-pay " ++ address ++ " returned an invoice we could not parse: " ++ e)))
    | .ok hash => .ret (.ok ⟨ids.id, ids.url, some ids.url, some hash⟩)

/-- What LNBits is told to echo. -/
def invoiceExtra (id streamId donor account : String) (sats : Int) : List (String × String) :=
  ("amount_sats", toString sats) :: ("creator_account_id", account) :: donationMetadata id streamId donor

def notRegistered (provider : String) : String := "Not found: Provider '" ++ provider ++ "' not registered"

section
variable (user : String)

/-- `LnbitsProvider::create_checkout`. -/
def lnbitsCheckout (req : CreateDonationRequest) (ids : CheckoutIds) (account : String) :
    PaymentHandler Checkout :=
  let sats := usdCentsToSats req.amountCents
  if ¬cfg.lightning then .ret (.error (.lightning (notRegistered "lightning")))
  else if sats ≤ 0 then .ret (.error (.lightning "Invalid request: Amount must be positive"))
  else
    .call (.createInvoice ids.paymentHash sats (invoiceExtra ids.id req.streamId user account sats)) fun r =>
      orError (fun e => .lightning ("Payment failed: " ++ e)) r fun _ => .ret (.ok ⟨ids.paymentHash, ids.url, none, none⟩)

/-- A checkout session at Stripe. -/
def stripeCheckout (mode : CheckoutMode) (metadata : List (String × String)) (ids : CheckoutIds) :
    PaymentHandler Checkout :=
  if ¬cfg.stripe then .ret (.error (.stripe (notRegistered "stripe"))) else
  .call (.createSession ids.sessionId mode metadata) fun r => orError .stripe r fun _ => .ret (.ok ⟨ids.sessionId, ids.url, none, none⟩)

def checkout (req : CreateDonationRequest) (ids : CheckoutIds) (message : Option String)
    (creator : CreatorProfile) : Provider → PaymentHandler Checkout
  | .lightning =>
    match creator.lightningAddress.filter fun a => a ≠ "" with
    | some address => lnurlCheckout cfg req ids message address
    | none => lnbitsCheckout cfg user req ids (creator.stripeAccountId.getD "")
  | .stripe => stripeCheckout cfg .payment (donationMetadata ids.id req.streamId user) ids

structure DonationResponse where
  id : String
  checkoutUrl : String
  /-- The BOLT11 text and what is given as its payment hash. -/
  invoice : Option (String × String)
  tier : String
  pinDurationSecs : Nat
deriving DecidableEq

/-- The row that `create_donation` inserts. -/
def pendingDonation (req : CreateDonationRequest) (message : Option String) (host : String) (c : Checkout) : Donation :=
  { streamId := req.streamId
    donorUserId := user
    recipientUserId := host
    amountCents := req.amountCents
    currency := "usd"
    message := message
    tier := (tierForAmount req.amountCents).name
    pinDurationSecs := (tierForAmount req.amountCents).pinDurationSecs
    stripeSessionId := some c.sessionId
    stripePaymentIntentId := none
    status := .pending
    bolt11 := c.bolt11
    paymentHash := c.paymentHash
    providerPaymentId := none }

/-- From the choice of the provider on. -/
def donateTo (req : CreateDonationRequest) (ids : CheckoutIds) (host : String)
    (creator : CreatorProfile) : PaymentHandler DonationResponse :=
  let message := req.message.map fun m => sanitizeDisplayText m 150
  match normalizeProvider req.paymentProvider with
  | .error e => .ret (.error e)
  | .ok provider =>
    orRefuse (requireOnboarded creator provider) <|
    orRefuse cfg.requireRegistry <|
    (checkout cfg user req ids message creator provider).andThen fun c =>
    .call (.insertDonation ids.id (pendingDonation user req message host c)) fun r => orDatabase r fun _ =>
    let tier := tierForAmount req.amountCents
    .ret (.ok ⟨ids.id, c.url, if provider = .lightning then some (c.url, c.sessionId) else none, tier.name, tier.pinDurationSecs⟩)

def createDonation (req : CreateDonationRequest) (ids : CheckoutIds) :
    PaymentHandler DonationResponse :=
  orRefuse cfg.features.requireDonations <|
  .call (.isUserSuspended user) fun suspended =>
    if suspended.toOption.getD false then refuse .forbidden "account suspended" else
    orRefuse (validateDonationAmount req.amountCents cfg.minDonationCents cfg.maxDonationCents) <|
    .call (.getStream req.streamId) fun r => orDatabase r fun stream =>
    match stream with
    | none => refuse .notFound "Stream not found"
    | some stream =>
      if stream.status ≠ .active then refuse .streamEnded "Stream is not active" else
      .call (.getCreatorProfile stream.hostUserId) fun r => orDatabase r fun creator =>
      match creator with
      | none => refuse .creatorNotOnboarded "Stream host has not set up donations"
      | some creator => donateTo cfg user req ids stream.hostUserId creator

/-! ## Announcing a donation -/

/-- Two digits. -/
def pad2 (n : Nat) : String := if n < 10 then "0" ++ toString n else toString n

/-- `format_donation_notice`; only three currencies have a symbol of their own. -/
def formatDonationNotice (c : DonationEventContent) : String :=
  let symbol := if c.currency = "eur" then "€" else if c.currency = "gbp" then "£" else "$"
  let text := symbol ++ toString (c.amountCents.tdiv 100) ++ "." ++ pad2 (c.amountCents.tmod 100).natAbs ++ " donation from " ++
    c.donorDisplayName
  match c.message with
  | some m => if m = "" then text else text ++ ": '" ++ m ++ "'"
  | none => text

/-- `emit_donation_event`; its callers only log how it went. -/
def emitDonationEvent (matrixRoomId : String) (content : DonationEventContent) (verified : Option String) : PaymentAction Unit :=
  .call (.joinRoom matrixRoomId) fun _ =>
  .call (.sendDonationEvent matrixRoomId content verified) fun r =>
    match r with
    | .ok _ => .call (.sendNotice matrixRoomId (formatDonationNotice content)) fun _ => .ret ()
    | .error _ => .ret ()

/-- To the room of the donation's stream, if both are found. -/
def announce (content : DonationEventContent) (verified : Option String) : PaymentAction Unit :=
  .call (.getStream content.streamId) fun r =>
    match r with
    | .ok (some stream) =>
      .call (.getRoom stream.roomId) fun r =>
        match r with
        | .ok (some room) => emitDonationEvent room.matrixRoomId content verified
        | _ => .ret ()
    | _ => .ret ()

/-! ## The LNBits webhook -/

/-- The fields of the payload that are read. -/
structure LNBitsWebhookPayload where
  paymentHash : String
  amount : Int
  extra : List (String × Json)
deriving DecidableEq

/-- The event made of a payload. The amount goes through the metadata as a decimal, in place of
an `amount_sats` of the payload. -/
structure CheckoutCompleted where
  sessionId : String
  amountSats : Int
  metadata : List (String × String)
deriving DecidableEq

def CheckoutCompleted.ofPayload (w : LNBitsWebhookPayload) : CheckoutCompleted :=
  ⟨w.paymentHash, w.amount, w.extra.map fun x => (x.1, String.ofList (Text.trimMatches Json.quote (x.2.render cfg.printFloat)))⟩

/-- A missing entry is the empty text. -/
def CheckoutCompleted.get (e : CheckoutCompleted) (key : String) : String := (e.metadata.lookup key).getD ""

/-- `LnbitsProvider::verify_webhook`. The payload is not signed: the payment hash in it is
looked up, the rest is taken as it is. -/
def verifyWebhook (body : Except String LNBitsWebhookPayload) : PaymentAction (Except String CheckoutCompleted) :=
  if ¬cfg.lightning then .ret (.error (notRegistered "lightning")) else
  match body with
  | .error e => .ret (.error ("Webhook verification failed: Invalid JSON: " ++ e))
  | .ok webhook =>
    .call (.checkPayment webhook.paymentHash) fun r =>
      match r with
      | .error e => .ret (.error ("Provider error: " ++ e))
      | .ok false => .ret (.error "Webhook verification failed: Payment not settled")
      | .ok true => .ret (.ok (.ofPayload cfg webhook))

/-- The update of the row; how it went is not looked at. -/
def settleByWebhook (e : CheckoutCompleted) : PaymentAction Unit :=
  if cfg.pgPool then
    match cfg.parseUuid (e.get "donation_id") with
    | some id => .call (.settleDonation id e.sessionId) fun _ => .ret ()
    | none => .ret ()
  else .ret ()

def lightningContent (e : CheckoutCompleted) : DonationEventContent :=
  let cents := satsToUsdCents e.amountSats
  let tier := tierForAmount cents
  { donationId := e.get "donation_id"
    streamId := e.get "stream_id"
    donorDisplayName := e.get "donor_user_id"
    amountCents := cents
    currency := "sats"
    message := e.metadata.lookup "message"
    tier := tier.name
    pinDurationSecs := tier.pinDurationSecs
    color := tier.color }

def announceByWebhook (e : CheckoutCompleted) : PaymentAction Unit :=
  if e.get "stream_id" ≠ "" ∧ e.get "donation_id" ≠ "" ∧ cfg.pgPool then announce (lightningContent e) (some e.sessionId) else .ret ()

def lnbitsWebhook (body : Except String LNBitsWebhookPayload) : PaymentHandler Unit :=
  if ¬cfg.paymentRegistry then refuse .monetizationDisabled "monetization disabled" else
  (verifyWebhook cfg body).bind fun event =>
    orError (fun e => .internal ("LNBits webhook error: " ++ e)) event fun event =>
    (settleByWebhook cfg event).bind fun _ => (announceByWebhook cfg event).bind fun _ => .ret (.ok ())

/-! ## The preimage proof -/

def preimageError : PreimageError → MMError
  | .mismatch => .api .invalidRequest "Preimage does not match this donation's payment_hash"
  | .badPreimage => .api .invalidRequest "Preimage must be 32 bytes hex-encoded (64 hex characters)"
  | .other e => .internal ("preimage verification failed: " ++ e)

/-- The row is found and the caller is part of it. -/
def proveDonation (id preimage : String) (d : Donation) : PaymentHandler DonationStatus :=
  match d.paymentHash with
  | none => refuse .invalidRequest "This donation has no associated Lightning invoice (Stripe rail or pre-V018 row)"
  | some hash =>
    if d.status = .succeeded then .ret (.ok .succeeded) else
    orRefuse ((cfg.verifyPreimage preimage hash).mapError preimageError) <|
    match d.stripeSessionId with
    | none => .ret (.error (.internal "donation row missing session_id"))
    | some session =>
      .call (.updateDonationStatus session .succeeded none) fun r => orDatabase r fun updated =>
        match updated with
        | none => .ret (.error (.internal "donation row vanished mid-update"))
        | some (_, updated) => .call (.countDonation id) fun _ => .ret (.ok updated.status)

def submitLightningProof (user id preimage : String) : PaymentHandler DonationStatus :=
  orRefuse cfg.features.requireDonations <|
  .call (.getDonation id) fun r => orDatabase r fun donation =>
    match donation with
    | none => refuse .notFound "Donation not found"
    | some (_, d) =>
      if user ≠ d.donorUserId ∧ user ≠ d.recipientUserId then
        refuse .forbidden "Only the donor or recipient can submit a Lightning payment proof"
      else proveDonation cfg id preimage d

/-! ## The Stripe webhook -/

structure CheckoutSession where
  id : String
  mode : CheckoutMode
  paymentIntent : Option String
  subscription : Option String
  /-- `mm_room_id` of its metadata. -/
  room : Option String
deriving DecidableEq

inductive EventType where
  | checkoutSessionCompleted
  | accountUpdated
  | customerSubscriptionDeleted
  | other (name : String)
deriving DecidableEq

def EventType.text : EventType → String
  | .checkoutSessionCompleted => "checkout.session.completed"
  | .accountUpdated => "account.updated"
  | .customerSubscriptionDeleted => "customer.subscription.deleted"
  | .other name => name

inductive EventObject where
  | checkoutSession (s : CheckoutSession)
  | account (id : String) (chargesEnabled : Bool)
  | subscription (id : String)
  | other
deriving DecidableEq

structure StripeEvent where
  id : String
  type : EventType
  object : EventObject
deriving DecidableEq

/-- A delivery: whether it has a signature header, and what its verification yields. -/
structure Delivery where
  signed : Bool
  event : Except String StripeEvent
deriving DecidableEq

def invalidate (cfg : PaymentConfig) (x : Subscription) : PaymentHandler Unit :=
  if cfg.entitlementService then .call (.invalidate x.subscriberUserId x.creatorUserId) fun _ => .ret (.ok ()) else .ret (.ok ())

def handleSubscriptionCheckoutCompleted (session : CheckoutSession) : PaymentHandler Unit :=
  if cfg.pgPool then
    .call (.activateSubscription session.id (session.subscription.getD session.id) session.room) fun r => orDatabase r fun row =>
      match row with
      | some (_, x) => invalidate cfg x
      | none => .ret (.ok ())
  else .ret (.ok ())

def donationContent (id : String) (d : Donation) : DonationEventContent :=
  let tier := tierForAmount d.amountCents
  { donationId := id
    streamId := d.streamId
    donorDisplayName := d.donorUserId
    amountCents := d.amountCents
    currency := d.currency
    message := d.message
    tier := d.tier
    pinDurationSecs := tier.pinDurationSecs
    color := tier.color }

def handleCheckoutCompleted (session : CheckoutSession) : PaymentHandler Unit :=
  if session.mode = .subscription then handleSubscriptionCheckoutCompleted cfg session else
  .call (.updateDonationStatus session.id .succeeded session.paymentIntent) fun r => orDatabase r fun donation =>
    match donation with
    | none => .ret (.ok ())
    | some (id, d) => .call (.countDonation id) fun _ => (announce (donationContent id d) none).bind fun _ => .ret (.ok ())

def handleAccountUpdated (id : String) (chargesEnabled : Bool) : PaymentHandler Unit :=
  if chargesEnabled then .call (.setCreatorOnboardingComplete id) fun r => orDatabase r fun _ => .ret (.ok ()) else .ret (.ok ())

def handleSubscriptionDeleted (id : String) : PaymentHandler Unit :=
  if cfg.pgPool then
    .call (.deleteSubscription id) fun r => orDatabase r fun row =>
      match row with
      | some (_, x) => invalidate cfg x
      | none => .ret (.ok ())
  else .ret (.ok ())

/-- The route by type; an object of another kind is an error. -/
def handleEvent (event : StripeEvent) : PaymentHandler Unit :=
  match event.type, event.object with
  | .checkoutSessionCompleted, .checkoutSession session => handleCheckoutCompleted cfg session
  | .checkoutSessionCompleted, _ => .ret (.error (.internal "Expected CheckoutSession in checkout.session.completed"))
  | .accountUpdated, .account id chargesEnabled => handleAccountUpdated id chargesEnabled
  | .accountUpdated, _ => .ret (.error (.internal "Expected Account in account.updated"))
  | .customerSubscriptionDeleted, .subscription id => handleSubscriptionDeleted cfg id
  | .customerSubscriptionDeleted, _ => .ret (.error (.internal "Expected Subscription in customer.subscription.deleted"))
  | .other _, _ => .ret (.ok ())

/-- The event is recorded before it is handled, and the answer does not depend on how that
went. -/
def stripeWebhook (delivery : Delivery) : PaymentHandler Unit :=
  orRefuse cfg.features.requireMonetization <|
  if cfg.webhookSigningSecret.utf8ByteSize < 32 then refuse .webhookInvalid "Webhook processing unavailable"
  else if ¬delivery.signed then refuse .webhookInvalid "Missing Stripe-Signature header"
  else
    match delivery.event with
    | .error e => refuse .webhookInvalid e
    | .ok event =>
      .call (.recordWebhookEvent event.id event.type.text) fun r => orDatabase r fun isNew =>
        if isNew then (handleEvent cfg event).bind fun _ => .ret (.ok ()) else .ret (.ok ())

/-! ## Tiers and subscriptions -/

structure CreateTierRequest where
  roomId : Option String
  name : String
  tierLevel : Int
  priceCents : Int
  permissions : Option TierPermissions
deriving DecidableEq

/-- `validate_tier`. -/
def validateTier (level price : Int) (existing : Nat) : Except MMError Unit :=
  if level < 1 ∨ 5 < level then .error (.api .invalidAmount "tier_level must be between 1 and 5")
  else if price < 99 ∨ 4999 < price then .error (.api .invalidAmount "price must be between 99 and 4999 cents")
  else if 5 ≤ existing then .error (.api .invalidAmount "maximum of 5 tiers per creator")
  else .ok ()

/-- `serde_json::to_value`. -/
def permissionsValue (p : TierPermissions) : Json :=
  .obj [("can_comment", .bool p.canComment), ("can_join_live", .bool p.canJoinLive), ("can_manage_room", .bool p.canManageRoom),
    ("can_react", .bool p.canReact), ("can_read", .bool p.canRead), ("can_send", .bool p.canSend), ("can_tip", .bool p.canTip),
    ("can_watch_recordings", .bool p.canWatchRecordings)]

def noPermissions : TierPermissions := ⟨false, false, false, false, false, false, false, false⟩

/-- `list_tiers_for_room`: a room without tiers of its own has the default ladder. -/
def listTiersForRoom (creator : String) (room : Option String) : PaymentHandler (List Tier) :=
  .call (.hasRoomTiers creator room) fun r => orDatabase r fun own =>
  .call (.listTiers creator (if own then room else none)) fun r => orDatabase r fun tiers => .ret (.ok tiers)

/-- The tiers that count against the limit. -/
def existingTiers (creator : String) (room : Option String) : PaymentHandler (List Tier) :=
  if room.isSome then listTiersForRoom creator room
  else .call (.getCreatorTiers creator) fun r => orDatabase r fun tiers => .ret (.ok (tiers.filter fun t => t.roomId.isNone))

/-- The row that `create_tier` inserts: no permissions until they are set. -/
def newTier (req : CreateTierRequest) : Tier := ⟨some user, req.name, req.tierLevel, true, req.roomId, .obj []⟩

def createTier (req : CreateTierRequest) (newId : String) : PaymentHandler String :=
  orRefuse cfg.features.requireSubscriptions <|
  .call (.getCreatorProfile user) fun r => orDatabase r fun creator =>
  match creator with
  | none => refuse .creatorNotOnboarded "Creator profile not found"
  | some creator =>
    if ¬creator.onboardingComplete then refuse .creatorNotOnboarded "Complete Stripe onboarding first"
    else if creator.stripeAccountId.isNone then refuse .creatorNotOnboarded "No Stripe account"
    else
      (existingTiers user req.roomId).andThen fun existing =>
      orRefuse (validateTier req.tierLevel req.priceCents (existing.countP fun t => t.isActive)) <|
      .call (.insertTier newId (newTier user req)) fun r => orDatabase r fun _ =>
      if cfg.pgPool then
        .call (.setTierPermissions newId (permissionsValue (req.permissions.getD noPermissions))) fun r =>
          orError (fun _ => .api .internal "failed to persist tier permissions") r fun _ => .ret (.ok newId)
      else .ret (.ok newId)

end

/-- The tier's creator takes part. -/
def requireCreator (creator : Option CreatorProfile) : Except MMError Unit :=
  match creator with
  | none => .error (.api .creatorNotOnboarded "Creator has not completed onboarding")
  | some creator =>
    if ¬creator.onboardingComplete then .error (.api .creatorNotOnboarded "Creator has not completed Stripe onboarding")
    else if creator.stripeAccountId.isNone then .error (.api .creatorNotOnboarded "Creator has no Stripe account")
    else .ok ()

def subscriptionMetadata (id user creator tierId : String) (room : Option String) : List (String × String) :=
  [("subscription_id", id), ("subscriber_user_id", user), ("creator_user_id", creator), ("tier_id", tierId)] ++
    (room.map fun r => ("mm_room_id", r)).toList

/-- The row that `create_subscription` inserts; its room is the request's, not the tier's. -/
def incomplete (user creator tierId : String) (room : Option String) (session : String) (periodEnd : DateTime) : Subscription :=
  ⟨user, creator, tierId, .incomplete, some session, periodEnd, room⟩

/-- `now` is the handler's clock. -/
def createSubscription (user tierId : String) (room : Option String) (ids : CheckoutIds) (now : DateTime) :
    PaymentHandler String :=
  orRefuse cfg.features.requireSubscriptions <|
  orRefuse cfg.requirePool <|
  .call (.getActiveTier tierId) fun r => orDatabase r fun tier =>
  match tier with
  | none => refuse .notFound "Tier not found or inactive"
  | some tier =>
    match tier.creatorUserId with
    | none => refuse .notFound "Cannot subscribe to a platform-default tier directly; the creator must adopt it first"
    | some creatorId =>
      .call (.getCreatorProfile creatorId) fun r => orDatabase r fun creator =>
      orRefuse (requireCreator creator) <|
      orRefuse cfg.requireRegistry <|
      (stripeCheckout cfg .subscription (subscriptionMetadata ids.id user creatorId tierId room) ids).andThen fun c =>
      .call (.insertSubscription ids.id (incomplete user creatorId tierId room c.sessionId (now + PaymentState.days 30))) fun r =>
        orDatabase r fun _ => .ret (.ok ids.id)

/-- The cancellation at Stripe, for an id that is one of Stripe's; a failure is only logged. -/
def cancelAtStripe (cfg : PaymentConfig) (stripeId : Option String) : PaymentAction Unit :=
  match stripeId with
  | some id => if Text.startsWith "sub_" id ∧ cfg.stripeClient then .call (.cancelAtStripe id) fun _ => .ret () else .ret ()
  | none => .ret ()

def cancelSubscription (cfg : PaymentConfig) (user id : String) : PaymentHandler Unit :=
  orRefuse cfg.features.requireSubscriptions <|
  orRefuse cfg.requirePool <|
  .call (.getSubscription id) fun r => orDatabase r fun row =>
  match row with
  | none => refuse .notFound "Subscription not found"
  | some x =>
    if x.subscriberUserId ≠ user then refuse .forbidden "Not your subscription"
    else if x.status = .cancelled then refuse .invalidAmount "Subscription already cancelled"
    else
      (cancelAtStripe cfg x.stripeSubscriptionId).bind fun _ =>
      .call (.cancelSubscription id) fun r => orDatabase r fun _ => invalidate cfg x

/-! ## Requests -/

/-- The requests, numbered so that two of them can be told apart. -/
inductive PaymentJob where
  | createDonation (n : Nat) (user : String) (req : CreateDonationRequest) (ids : CheckoutIds)
  | lnbitsWebhook (n : Nat) (body : Except String LNBitsWebhookPayload)
  | submitLightningProof (n : Nat) (user id preimage : String)
  | stripeWebhook (n : Nat) (delivery : Delivery)
  | createTier (n : Nat) (user : String) (req : CreateTierRequest) (newId : String)
  | createSubscription (n : Nat) (user tierId : String) (room : Option String) (ids : CheckoutIds) (now : DateTime)
  | cancelSubscription (n : Nat) (user id : String)
deriving DecidableEq

inductive PaymentResponse where
  | donation (r : DonationResponse)
  | confirmed (status : DonationStatus)
  | created (id : String)
  | done
deriving DecidableEq

abbrev PaymentOutcome : Type := Except MMError PaymentResponse

def respondWith {α : Type} (f : α → PaymentResponse) (p : PaymentHandler α) : PaymentAction PaymentOutcome :=
  p.bind fun r => .ret (r.map f)

def PaymentJob.program : PaymentJob → PaymentAction PaymentOutcome
  | .createDonation _ user req ids => respondWith .donation (Monetization.createDonation cfg user req ids)
  | .lnbitsWebhook _ body => respondWith (fun _ => .done) (Monetization.lnbitsWebhook cfg body)
  | .submitLightningProof _ user id preimage => respondWith .confirmed (Monetization.submitLightningProof cfg user id preimage)
  | .stripeWebhook _ delivery => respondWith (fun _ => .done) (Monetization.stripeWebhook cfg delivery)
  | .createTier _ user req newId => respondWith .created (Monetization.createTier cfg user req newId)
  | .createSubscription _ user tierId room ids now => respondWith .created (Monetization.createSubscription cfg user tierId room ids now)
  | .cancelSubscription _ user id => respondWith (fun _ => .done) (Monetization.cancelSubscription cfg user id)

abbrev PaymentPool : Type := Pool PaymentState PaymentRequest PaymentRequest.Reply PaymentJob PaymentOutcome

abbrev PaymentPoolEvent : Type := Event PaymentJob CallFate PaymentMove

/-- Nothing is stored and nothing in flight. -/
def PaymentPool.start (utcNow : DateTime) : PaymentPool := ⟨.start utcNow, [], []⟩

def paymentStep : PaymentPool → PaymentPoolEvent → PaymentPool :=
  poolStep paymentService (PaymentJob.program cfg)

end

end MatrixMedia.Monetization
