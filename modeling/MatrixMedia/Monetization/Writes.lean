import MatrixMedia.Monetization.Handlers

/-!
# What each payment handler writes

`PaymentJob.May` lists the requests of every handler, by what they write. The results about
runs start from `program_may`.
-/

namespace MatrixMedia.Monetization
open Lib Lib.Interaction Api
open Paywall (Subscription)

/-- It writes no donation, tier, subscription, invoice, log entry, event or count. -/
def PaymentRequest.Plain : PaymentRequest → Prop
  | .createInvoice .. | .insertDonation _ _ | .updateDonationStatus .. | .settleDonation _ _ | .recordWebhookEvent _ _
  | .countDonation _ | .sendDonationEvent .. | .insertTier _ _ | .setTierPermissions _ _ | .insertSubscription _ _
  | .activateSubscription .. | .cancelSubscription _ | .deleteSubscription _ => False
  | _ => True

/-- What the handler of an event writes. -/
inductive StripeEvent.Writes (event : StripeEvent) : PaymentRequest → Prop where
  | update (session : String) (intent : Option String) : Writes event (.updateDonationStatus session .succeeded intent)
  | count (id : String) : Writes event (.countDonation id)
  | announce (room : String) (content : DonationEventContent) : Writes event (.sendDonationEvent room content none)
  | activate (session newId : String) (room : Option String) : Writes event (.activateSubscription session newId room)
  | delete (type : event.type = .customerSubscriptionDeleted) (id : String) : Writes event (.deleteSubscription id)

/-- The requests a job makes, by what they write. -/
def PaymentJob.May (cfg : PaymentConfig) : PaymentJob → PaymentRequest → Prop
  | .createDonation _ user req ids, q => q.Plain ∨
      (∃ account, q = .createInvoice ids.paymentHash (usdCentsToSats req.amountCents)
        (invoiceExtra ids.id req.streamId user account (usdCentsToSats req.amountCents))) ∨
      ∃ message host c, q = .insertDonation ids.id (pendingDonation user req message host c)
  | .lnbitsWebhook _ body, q => q.Plain ∨ ∃ w, body = .ok w ∧
      ((∃ id, cfg.parseUuid ((CheckoutCompleted.ofPayload cfg w).get "donation_id") = some id ∧ q = .settleDonation id w.paymentHash) ∨
        ∃ room, q = .sendDonationEvent room (lightningContent (.ofPayload cfg w)) (some w.paymentHash))
  | .submitLightningProof _ _ id _, q => q.Plain ∨ (∃ session, q = .updateDonationStatus session .succeeded none) ∨ q = .countDonation id
  | .stripeWebhook _ delivery, q => q.Plain ∨ ∃ event, delivery.event = .ok event ∧
      (q = .recordWebhookEvent event.id event.type.text ∨ event.Writes q)
  | .createTier _ user req newId, q => q.Plain ∨ q = .insertTier newId (newTier user req) ∨ ∃ p, q = .setTierPermissions newId p
  | .createSubscription _ user tierId room ids now, q => q.Plain ∨ (cfg.pgPool = true ∧
      ∃ creator session, q = .insertSubscription ids.id (incomplete user creator tierId room session (now + PaymentState.days 30)))
  | .cancelSubscription _ _ id, q => q.Plain ∨ q = .cancelSubscription id

/-- The same, one case for each kind of request. -/
inductive PaymentJob.Asks (cfg : PaymentConfig) : PaymentJob → PaymentRequest → Prop where
  | plain {k q} (h : q.Plain) : Asks cfg k q
  | invoice {n user req ids account} : Asks cfg (.createDonation n user req ids) (.createInvoice ids.paymentHash
      (usdCentsToSats req.amountCents) (invoiceExtra ids.id req.streamId user account (usdCentsToSats req.amountCents)))
  | donation {n user req ids message host c} : Asks cfg (.createDonation n user req ids)
      (.insertDonation ids.id (pendingDonation user req message host c))
  | settle {n w id} : Asks cfg (.lnbitsWebhook n (.ok w)) (.settleDonation id w.paymentHash)
  | announce {n w room} : Asks cfg (.lnbitsWebhook n (.ok w))
      (.sendDonationEvent room (lightningContent (.ofPayload cfg w)) (some w.paymentHash))
  | proof {n user id preimage session} : Asks cfg (.submitLightningProof n user id preimage) (.updateDonationStatus session .succeeded none)
  | count {n user id preimage} : Asks cfg (.submitLightningProof n user id preimage) (.countDonation id)
  | record {n delivery event type} : Asks cfg (.stripeWebhook n delivery) (.recordWebhookEvent event type)
  | stripe {n delivery event q} (hevent : delivery.event = .ok event) (h : event.Writes q) : Asks cfg (.stripeWebhook n delivery) q
  | tier {n user req newId} : Asks cfg (.createTier n user req newId) (.insertTier newId (newTier user req))
  | permissions {n user req newId p} : Asks cfg (.createTier n user req newId) (.setTierPermissions newId p)
  | subscription {n user tierId room ids now creator session} (hpool : cfg.pgPool = true) :
      Asks cfg (.createSubscription n user tierId room ids now)
        (.insertSubscription ids.id (incomplete user creator tierId room session (now + PaymentState.days 30)))
  | cancel {n user id} : Asks cfg (.cancelSubscription n user id) (.cancelSubscription id)

variable {cfg : PaymentConfig} {P : PaymentRequest → Prop}

theorem PaymentJob.May.asks {k : PaymentJob} {q} (hq : k.May cfg q) : k.Asks cfg q := by
  cases k with
  | createDonation n user req ids =>
    rcases hq with hplain | ⟨account, rfl⟩ | ⟨message, host, c, rfl⟩
    · exact .plain hplain
    · exact .invoice
    · exact .donation
  | lnbitsWebhook n body =>
    rcases hq with hplain | ⟨w, rfl, ⟨id, -, rfl⟩ | ⟨room, rfl⟩⟩
    · exact .plain hplain
    · exact .settle
    · exact .announce
  | submitLightningProof n user id preimage =>
    rcases hq with hplain | ⟨session, rfl⟩ | rfl
    · exact .plain hplain
    · exact .proof
    · exact .count
  | stripeWebhook n delivery =>
    rcases hq with hplain | ⟨event, hevent, rfl | hwrites⟩
    · exact .plain hplain
    · exact .record
    · exact .stripe hevent hwrites
  | createTier n user req newId =>
    rcases hq with hplain | rfl | ⟨p, rfl⟩
    · exact .plain hplain
    · exact .tier
    · exact .permissions
  | createSubscription n user tierId room ids now =>
    rcases hq with hplain | ⟨hpool, creator, session, rfl⟩
    · exact .plain hplain
    · exact .subscription hpool
  | cancelSubscription n user id =>
    rcases hq with hplain | rfl
    · exact .plain hplain
    · exact .cancel

theorem uses_respondWith {α : Type} {f} {p : PaymentHandler α} (h : p.Uses P) : (respondWith f p).Uses P :=
  h.bind fun _ => trivial

/-! ## Donations -/

section
variable {user : String} {req : CreateDonationRequest} {ids : CheckoutIds}

theorem stripeCheckout_plain {mode metadata} :
    (stripeCheckout cfg mode metadata ids).Uses PaymentRequest.Plain := by
  unfold stripeCheckout
  split
  · trivial
  · exact ⟨trivial, fun r => uses_orError fun _ => trivial⟩

theorem lnurlCheckout_plain {message address} :
    (lnurlCheckout cfg req ids message address).Uses PaymentRequest.Plain := by
  unfold lnurlCheckout
  dsimp only
  split
  · trivial
  refine ⟨trivial, fun r => uses_orError fun _ => ?_⟩
  split <;> trivial

section
variable (invoice : ∀ account, P (.createInvoice ids.paymentHash (usdCentsToSats req.amountCents)
  (invoiceExtra ids.id req.streamId user account (usdCentsToSats req.amountCents))))
include invoice

theorem lnbitsCheckout_uses {account} : (lnbitsCheckout cfg user req ids account).Uses P := by
  unfold lnbitsCheckout
  dsimp only
  split
  · trivial
  split
  · trivial
  · exact ⟨invoice _, fun r => uses_orError fun _ => trivial⟩

theorem checkout_uses {message creator provider} (plain : ∀ q, q.Plain → P q) :
    (checkout cfg user req ids message creator provider).Uses P := by
  cases provider with
  | stripe => exact stripeCheckout_plain.mono plain
  | lightning =>
    dsimp only [checkout]
    split
    · exact lnurlCheckout_plain.mono plain
    · exact lnbitsCheckout_uses invoice

theorem donateTo_uses {host creator} (plain : ∀ q, q.Plain → P q)
    (insert : ∀ message c, P (.insertDonation ids.id (pendingDonation user req message host c))) :
    (donateTo cfg user req ids host creator).Uses P := by
  unfold donateTo
  dsimp only
  split
  · trivial
  · exact uses_orRefuse (uses_orRefuse ((checkout_uses invoice plain).andThen fun c =>
      ⟨insert _ c, fun r => uses_orError fun _ => trivial⟩))

end

theorem createDonation_may : (createDonation cfg user req ids).Uses (PaymentJob.May cfg (.createDonation 0 user req ids)) := by
  refine uses_orRefuse ⟨.inl trivial, fun suspended => ?_⟩
  dsimp only
  split
  · trivial
  refine uses_orRefuse ⟨.inl trivial, fun r => uses_orError fun stream => ?_⟩
  cases stream with
  | none => trivial
  | some stream =>
    dsimp only
    split
    · trivial
    refine ⟨.inl trivial, fun r => uses_orError fun creator => ?_⟩
    cases creator with
    | none => trivial
    | some creator =>
      exact donateTo_uses (fun account => .inr (.inl ⟨account, rfl⟩)) (fun _ => .inl) fun message c => .inr (.inr ⟨message, _, c, rfl⟩)

end

theorem announce_uses {content verified} (plain : ∀ q, q.Plain → P q)
    (send : ∀ room, P (.sendDonationEvent room content verified)) : (announce content verified).Uses P := by
  refine ⟨plain _ trivial, fun r => ?_⟩
  dsimp only
  split
  · refine ⟨plain _ trivial, fun r => ?_⟩
    dsimp only
    split
    · refine ⟨plain _ trivial, fun _ => ⟨send _, fun r => ?_⟩⟩
      dsimp only
      split
      · exact ⟨plain _ trivial, fun _ => trivial⟩
      · trivial
    · trivial
  · trivial

section
variable {w : LNBitsWebhookPayload}

theorem settleByWebhook_uses {e : CheckoutCompleted} (settle : ∀ id, cfg.parseUuid (e.get "donation_id") = some id →
    P (.settleDonation id e.sessionId)) : (settleByWebhook cfg e).Uses P := by
  unfold settleByWebhook
  split
  · split
    · rename_i id hid
      exact ⟨settle id hid, fun _ => trivial⟩
    · trivial
  · trivial

theorem announceByWebhook_uses {e : CheckoutCompleted} (plain : ∀ q, q.Plain → P q)
    (send : ∀ room, P (.sendDonationEvent room (lightningContent e) (some e.sessionId))) : (announceByWebhook cfg e).Uses P := by
  unfold announceByWebhook
  split
  · exact announce_uses plain send
  · trivial

end

theorem submitLightningProof_may {user id preimage} :
    (submitLightningProof cfg user id preimage).Uses (PaymentJob.May cfg (.submitLightningProof 0 user id preimage)) := by
  refine uses_orRefuse ⟨.inl trivial, fun r => uses_orError fun donation => ?_⟩
  cases donation with
  | none => trivial
  | some donation =>
    dsimp only
    split
    · trivial
    unfold proveDonation
    split
    · trivial
    split
    · trivial
    refine uses_orRefuse ?_
    split
    · trivial
    refine ⟨.inr (.inl ⟨_, rfl⟩), fun r => uses_orError fun updated => ?_⟩
    cases updated with
    | none => trivial
    | some updated => exact ⟨.inr (.inr rfl), fun _ => trivial⟩

/-! ## Stripe -/

theorem invalidate_plain {x} : (invalidate cfg x).Uses PaymentRequest.Plain := by
  unfold invalidate
  split
  · exact ⟨trivial, fun _ => trivial⟩
  · trivial

theorem handleEvent_uses {event : StripeEvent} : (handleEvent cfg event).Uses fun q => q.Plain ∨ event.Writes q := by
  have hinvalidate : ∀ x, (invalidate cfg x).Uses fun q => q.Plain ∨ event.Writes q := fun x => invalidate_plain.mono fun _ => .inl
  unfold handleEvent
  split
  · rename_i session _ _
    unfold handleCheckoutCompleted
    split
    · unfold handleSubscriptionCheckoutCompleted
      split
      · refine ⟨.inr (.activate _ _ _), fun r => uses_orError fun row => ?_⟩
        cases row with
        | none => trivial
        | some row => exact hinvalidate _
      · trivial
    · refine ⟨.inr (.update _ _), fun r => uses_orError fun donation => ?_⟩
      cases donation with
      | none => trivial
      | some donation =>
        exact ⟨.inr (.count _), fun _ => (announce_uses (fun _ => .inl) fun room => .inr (.announce _ _)).bind fun _ => trivial⟩
  · trivial
  · unfold handleAccountUpdated
    split
    · exact ⟨.inl trivial, fun r => uses_orError fun _ => trivial⟩
    · trivial
  · trivial
  · rename_i htype _
    unfold handleSubscriptionDeleted
    split
    · refine ⟨.inr (.delete htype _), fun r => uses_orError fun row => ?_⟩
      cases row with
      | none => trivial
      | some row => exact hinvalidate _
    · trivial
  · trivial
  · trivial

/-! ## Subscriptions -/

theorem existingTiers_plain {creator room} : (existingTiers creator room).Uses PaymentRequest.Plain := by
  unfold existingTiers
  split
  · exact ⟨trivial, fun r => uses_orError fun _ => ⟨trivial, fun r => uses_orError fun _ => trivial⟩⟩
  · exact ⟨trivial, fun r => uses_orError fun _ => trivial⟩

theorem createTier_may {user newId req} :
    (createTier cfg user req newId).Uses (PaymentJob.May cfg (.createTier 0 user req newId)) := by
  refine uses_orRefuse ⟨.inl trivial, fun r => uses_orError fun creator => ?_⟩
  cases creator with
  | none => trivial
  | some creator =>
    dsimp only
    split
    · trivial
    split
    · trivial
    refine (existingTiers_plain.mono fun _ => .inl).andThen fun existing => uses_orRefuse
      ⟨.inr (.inl rfl), fun r => uses_orError fun _ => ?_⟩
    split
    · exact ⟨.inr (.inr ⟨_, rfl⟩), fun r => uses_orError fun _ => trivial⟩
    · trivial

theorem createSubscription_may {user tierId room ids now} :
    (createSubscription cfg user tierId room ids now).Uses (PaymentJob.May cfg (.createSubscription 0 user tierId room ids now)) := by
  refine uses_orRefuse ?_
  cases hpool : cfg.pgPool with
  | false =>
    unfold PaymentConfig.requirePool
    rw [hpool]
    trivial
  | true =>
    refine uses_orRefuse ⟨.inl trivial, fun r => uses_orError fun tier => ?_⟩
    cases tier with
    | none => trivial
    | some tier =>
      dsimp only
      split
      · trivial
      · exact ⟨.inl trivial, fun r => uses_orError fun creator => uses_orRefuse (uses_orRefuse
          ((stripeCheckout_plain.mono fun _ => .inl).andThen fun c =>
            ⟨.inr ⟨hpool, _, _, rfl⟩, fun r => uses_orError fun _ => trivial⟩))⟩

theorem cancelSubscription_may {user id} :
    (cancelSubscription cfg user id).Uses (PaymentJob.May cfg (.cancelSubscription 0 user id)) := by
  refine uses_orRefuse (uses_orRefuse ⟨.inl trivial, fun r => uses_orError fun row => ?_⟩)
  cases row with
  | none => trivial
  | some x =>
    dsimp only
    split
    · trivial
    split
    · trivial
    refine Prog.Uses.bind ?_ fun _ => ⟨.inr rfl, fun r => uses_orError fun _ => invalidate_plain.mono fun _ => .inl⟩
    unfold cancelAtStripe
    split
    · split
      · exact ⟨.inl trivial, fun _ => trivial⟩
      · trivial
    · trivial

/-- **The requests of every job.** -/
theorem program_may (k : PaymentJob) : (k.program cfg).Uses (k.May cfg) := by
  cases k with
  | createDonation n user req ids => exact uses_respondWith createDonation_may
  | lnbitsWebhook n body =>
    refine uses_respondWith ?_
    unfold lnbitsWebhook
    split
    · trivial
    unfold verifyWebhook
    split
    · trivial
    cases body with
    | error e => trivial
    | ok w =>
      refine ⟨.inl trivial, fun r => ?_⟩
      dsimp only
      split
      · trivial
      · trivial
      · exact (settleByWebhook_uses fun id hid => .inr ⟨w, rfl, .inl ⟨id, hid, rfl⟩⟩).bind fun _ =>
          (announceByWebhook_uses (fun _ => .inl) fun room => .inr ⟨w, rfl, .inr ⟨room, rfl⟩⟩).bind fun _ => trivial
  | submitLightningProof n user id preimage => exact uses_respondWith submitLightningProof_may
  | stripeWebhook n delivery =>
    refine uses_respondWith (uses_orRefuse ?_)
    split
    · trivial
    split
    · trivial
    split
    · trivial
    · rename_i event hevent
      refine ⟨.inr ⟨event, hevent, .inl rfl⟩, fun r => uses_orError fun isNew => ?_⟩
      split
      · exact (handleEvent_uses.mono fun q hq => hq.imp_right fun h => ⟨event, hevent, .inr h⟩).bind fun _ => trivial
      · trivial
  | createTier n user req newId => exact uses_respondWith createTier_may
  | createSubscription n user tierId room ids now => exact uses_respondWith createSubscription_may
  | cancelSubscription n user id => exact uses_respondWith cancelSubscription_may

end MatrixMedia.Monetization
