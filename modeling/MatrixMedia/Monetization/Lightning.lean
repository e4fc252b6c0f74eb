import MatrixMedia.Monetization.Writes
import MatrixMedia.Switch.ViewerIds

/-!
# Which payment confirms a Lightning donation

`lnbits_webhook` takes the proof of payment and what it is a proof of from one body that is not
signed: the payment hash is looked up at LNBits, the donation, the stream, the donor and the
amount are not. So `confirmed_by_its_own_payment` holds when every body is the one LNBits sends
for an invoice that it made, and `paid_by_another` is what any other body can do.
-/

namespace MatrixMedia.Monetization
open Lib Lib.Interaction Api CheckoutCompleted PaymentState
open Std (TreeMap)

/-- What a donation is for. -/
structure DonationTerms where
  streamId : String
  donor : String
  amountCents : Int
deriving DecidableEq

def Donation.terms (d : Donation) : DonationTerms := ⟨d.streamId, d.donorUserId, d.amountCents⟩

def DonationEventContent.terms (c : DonationEventContent) : DonationTerms := ⟨c.streamId, c.donorDisplayName, c.amountCents⟩

/-- The invoice that is made for a donation. -/
def invoiceFor (id : String) (t : DonationTerms) (account : String) : Invoice :=
  ⟨usdCentsToSats t.amountCents, invoiceExtra id t.streamId t.donor account (usdCentsToSats t.amountCents)⟩

/-- The hash is settled, and it is the hash of the donation's own invoice. -/
def Paid (s : PaymentState) (id hash : String) : Prop :=
  hash ∈ s.settled ∧ ∃ invoice, s.invoices[hash]? = some invoice ∧ invoice.extra.lookup "donation_id" = some id

/-- The id and the texts of a donation go through JSON as they are, and the id is a UUID. -/
structure Wellformed (cfg : PaymentConfig) (id : String) (t : DonationTerms) : Prop where
  uuid : cfg.parseUuid id = some id
  plainId : Json.Plain id
  plainStream : Json.Plain t.streamId
  plainDonor : Json.Plain t.donor

variable {cfg : PaymentConfig} {terms : String → DonationTerms} {s s' : PaymentState}

/-! ## The invariant -/

/-- Invoices are made for donations, and what is confirmed or announced has been paid for, on
the terms of the donation. -/
structure Confirmed (cfg : PaymentConfig) (terms : String → DonationTerms) (s : PaymentState) : Prop where
  invoices : ∀ (hash : String) (invoice : Invoice), s.invoices[hash]? = some invoice →
    ∃ id account, invoice = invoiceFor id (terms id) account ∧ Wellformed cfg id (terms id)
  donations : ∀ (id : String) (row : Donation), s.donations[id]? = some row →
    row.terms = terms id ∧ ∀ hash, row.providerPaymentId = some hash → Paid s id hash
  announced : ∀ a ∈ s.announced, ∀ hash, a.verified = some hash →
    Paid s a.content.donationId hash ∧ a.content.terms = terms a.content.donationId

/-- Invoices stay, and settled payments stay settled. -/
structure Keeps (s s' : PaymentState) : Prop where
  invoices : ∀ (hash : String) (invoice : Invoice), s.invoices[hash]? = some invoice → s'.invoices[hash]? = some invoice
  settled : s.settled ⊆ s'.settled

theorem Keeps.refl (s : PaymentState) : Keeps s s := ⟨fun _ _ h => h, List.Subset.refl _⟩

theorem Paid.keeps {id hash} (h : Paid s id hash) (hkeeps : Keeps s s') : Paid s' id hash := by
  obtain ⟨hsettled, invoice, hinvoice, hid⟩ := h
  exact ⟨hkeeps.settled hsettled, invoice, hkeeps.invoices hash invoice hinvoice, hid⟩

/-- What may be written. -/
def OnTerms (cfg : PaymentConfig) (terms : String → DonationTerms) (s : PaymentState) : PaymentRequest → Prop
  | .createInvoice _ amount extra => ∃ id account, (⟨amount, extra⟩ : Invoice) = invoiceFor id (terms id) account ∧
      Wellformed cfg id (terms id)
  | .insertDonation id row => row.terms = terms id ∧ row.providerPaymentId = none
  | .settleDonation id hash => Paid s id hash
  | .sendDonationEvent _ content verified => ∀ hash, verified = some hash →
      Paid s content.donationId hash ∧ content.terms = terms content.donationId
  | _ => True

theorem PaymentState.Effect.keeps (heffect : s.Effect q s') : Keeps s s' := by
  cases heffect with
  | @invoiced hash amount extra fresh =>
    refine ⟨fun hash' invoice hinvoice => ?_, List.Subset.refl _⟩
    dsimp only
    rw [Table.getElem?_insert, if_neg]
    · exact hinvoice
    · rintro rfl
      cases fresh.symm.trans hinvoice
  | _ => exact ⟨fun _ _ h => h, List.Subset.refl _⟩

/-- Other fields of the donation rows change. -/
theorem Confirmed.rows (h : Confirmed cfg terms s) {donations}
    (hrows : ∀ id row, donations[id]? = some row →
      row.terms = terms id ∧ ∀ hash, row.providerPaymentId = some hash → Paid s id hash) :
    Confirmed cfg terms { s with donations := donations } :=
  ⟨h.invoices, hrows, h.announced⟩

variable {q : PaymentRequest} {w : LNBitsWebhookPayload}

theorem Confirmed.effect (h : Confirmed cfg terms s) (hq : OnTerms cfg terms s q) (heffect : s.Effect q s') :
    Confirmed cfg terms s' := by
  have hkeeps := heffect.keeps
  cases heffect with
  | @invoiced hash amount extra fresh =>
    refine ⟨fun hash' invoice hinvoice => ?_, fun id row hrow => ?_, fun a ha hash' hverified => ?_⟩
    · rw [Table.getElem?_insert] at hinvoice
      split at hinvoice
      · cases hinvoice
        exact hq
      · exact h.invoices hash' invoice hinvoice
    · obtain ⟨hterms, hpaid⟩ := h.donations id row hrow
      exact ⟨hterms, fun hash' hhash => (hpaid hash' hhash).keeps hkeeps⟩
    · obtain ⟨hpaid, hterms⟩ := h.announced a ha hash' hverified
      exact ⟨hpaid.keeps hkeeps, hterms⟩
  | @donated id row fresh =>
    refine h.rows fun id' row' hrow' => ?_
    rw [Table.getElem?_insert] at hrow'
    split at hrow'
    · rename_i heq
      cases hrow'
      exact ⟨heq ▸ hq.1, fun hash hhash => nomatch hq.2.symm.trans hhash⟩
    · exact h.donations id' row' hrow'
  | @updated session status intent =>
    refine h.rows fun id row hrow => ?_
    rw [TreeMap.getElem?_map] at hrow
    obtain ⟨old, hold, rfl⟩ := Option.map_eq_some_iff.mp hrow
    have hsame : (setStatus session status intent old).terms = old.terms ∧
        (setStatus session status intent old).providerPaymentId = old.providerPaymentId := by
      unfold setStatus
      split <;> exact ⟨rfl, rfl⟩
    rw [hsame.1, hsame.2]
    exact h.donations id old hold
  | @settled id hash =>
    refine h.rows fun id' row hrow => ?_
    rw [Table.getElem?_modify] at hrow
    split at hrow
    · rename_i heq
      obtain ⟨old, hold, rfl⟩ := Option.map_eq_some_iff.mp hrow
      refine ⟨(h.donations id' old hold).1, fun hash' hhash => ?_⟩
      cases Option.some.inj hhash
      exact heq ▸ hq
    · exact h.donations id' row hrow
  | announced =>
    refine ⟨h.invoices, h.donations, fun a ha hash hverified => ?_⟩
    rcases List.mem_cons.mp ha with rfl | ha
    · exact hq hash hverified
    · exact h.announced a ha hash hverified
  | _ => exact ⟨h.invoices, h.donations, h.announced⟩

theorem Confirmed.move (h : Confirmed cfg terms s) (m : PaymentMove) : Confirmed cfg terms (s.move m) ∧ Keeps s (s.move m) := by
  cases m with
  | settle hash =>
    have hkeeps : Keeps s (s.move (.settle hash)) := ⟨fun _ _ h => h, List.subset_cons_self _ _⟩
    refine ⟨⟨h.invoices, fun id row hrow => ?_, fun a ha hash' hverified => ?_⟩, hkeeps⟩
    · obtain ⟨hterms, hpaid⟩ := h.donations id row hrow
      exact ⟨hterms, fun hash' hhash => (hpaid hash' hhash).keeps hkeeps⟩
    · obtain ⟨hpaid, hterms⟩ := h.announced a ha hash' hverified
      exact ⟨hpaid.keeps hkeeps, hterms⟩
  | _ => exact ⟨⟨h.invoices, h.donations, h.announced⟩, fun _ _ h => h, List.Subset.refl _⟩

/-- Donations have their terms, and payments belong to donations. -/
def confirming (cfg : PaymentConfig) (terms : String → DonationTerms) : Discipline paymentService where
  inv := Confirmed cfg terms
  rely := Keeps
  allowed := OnTerms cfg terms
  admits := fun _ _ _ => True
  moves := fun _ _ => True
  rely_refl := Keeps.refl
  rely_trans := fun h₁ h₂ => ⟨fun hash invoice h => h₂.invoices hash invoice (h₁.invoices hash invoice h), fun _ h => h₂.settled (h₁.settled h)⟩
  request_keeps := fun {s q fate} h hq _ => ⟨h.effect hq (s.request_effect q fate), (s.request_effect q fate).keeps⟩
  move_keeps := fun {_ m} h _ => h.move m

/-! ## What a webhook says -/

theorem lookup_map_values {α β : Type} (f : α → β) (key : String) (l : List (String × α)) :
    (l.map fun x => (x.1, f x.2)).lookup key = (l.lookup key).map f := by
  induction l with
  | nil => rfl
  | cons x l ih =>
    obtain ⟨k, v⟩ := x
    simp only [List.map_cons, List.lookup_cons, ih]
    cases key == k <;> rfl

/-- The body that LNBits sends for this invoice. -/
def Echoes (invoice : Invoice) (w : LNBitsWebhookPayload) : Prop :=
  w.amount = invoice.amountSats ∧ w.extra = invoice.extra.map fun x => (x.1, .str x.2)

theorem Echoes.get {invoice : Invoice} (h : Echoes invoice w) {key value}
    (hvalue : invoice.extra.lookup key = some value) (hplain : Json.Plain value) : (ofPayload cfg w).get key = value := by
  have hmetadata : (ofPayload cfg w).metadata.lookup key = some value := by
    show (w.extra.map fun x => (x.1, String.ofList (Text.trimMatches Json.quote (x.2.render cfg.printFloat)))).lookup key = some value
    rw [lookup_map_values (fun v : Json => String.ofList (Text.trimMatches Json.quote (v.render cfg.printFloat))), h.2,
      lookup_map_values Json.str, hvalue]
    show some (String.ofList (Text.trimMatches Json.quote (Json.quoted value))) = some value
    rw [Json.trimMatches_quoted hplain, String.ofList_toList]
  rw [CheckoutCompleted.get, hmetadata]
  rfl

/-- Such a body says what the donation is. -/
theorem Echoes.content {id account t} (h : Echoes (invoiceFor id t account) w)
    (hformed : Wellformed cfg id t) : (lightningContent (.ofPayload cfg w)).donationId = id ∧
      (lightningContent (.ofPayload cfg w)).terms = t := by
  have hid : (ofPayload cfg w).get "donation_id" = id := h.get rfl hformed.plainId
  have hstream : (ofPayload cfg w).get "stream_id" = t.streamId := h.get rfl hformed.plainStream
  have hdonor : (ofPayload cfg w).get "donor_user_id" = t.donor := h.get rfl hformed.plainDonor
  have hamount : satsToUsdCents (ofPayload cfg w).amountSats = t.amountCents := by
    show satsToUsdCents w.amount = t.amountCents
    rw [h.1]
    exact satsToUsdCents_usdCentsToSats _
  refine ⟨hid, ?_⟩
  show DonationTerms.mk ((ofPayload cfg w).get "stream_id") ((ofPayload cfg w).get "donor_user_id")
    (satsToUsdCents (ofPayload cfg w).amountSats) = t
  rw [hstream, hdonor, hamount]

/-! ## The jobs -/

/-- Donations are created under ids of their own, and webhooks come from LNBits. -/
def Genuine (cfg : PaymentConfig) (terms : String → DonationTerms) (s : PaymentState) : PaymentJob → Prop
  | .createDonation _ user req ids => terms ids.id = ⟨req.streamId, user, req.amountCents⟩ ∧ Wellformed cfg ids.id (terms ids.id)
  | .lnbitsWebhook _ (.ok w) => ∃ invoice ∈ s.invoices[w.paymentHash]?, Echoes invoice w
  | _ => True

theorem onTerms_of_plain (h : q.Plain) : OnTerms cfg terms s q := by
  cases q <;> trivial

/-- The jobs that confirm nothing by a payment hash. -/
theorem onTerms_of_may {k : PaymentJob} (hk : ∀ s, Genuine cfg terms s k) (hother : ∀ n w, k ≠ .lnbitsWebhook n (.ok w))
    (hq : k.May cfg q) : OnTerms cfg terms s q := by
  cases hq.asks with
  | plain hplain => exact onTerms_of_plain hplain
  | @invoice _ _ _ ids account => exact ⟨ids.id, account, by rw [(hk s).1]; rfl, (hk s).2⟩
  | donation => exact ⟨(hk s).1.symm, rfl⟩
  | settle | announce => exact absurd rfl (hother _ _)
  | stripe _ hwrites =>
    cases hwrites with
    | announce room content => exact fun hash hverified => nomatch hverified
    | _ => trivial
  | _ => trivial

theorem checkPayment_settled {hash fate} (h : s.request (.checkPayment hash) fate = (s', .ok true)) :
    hash ∈ s'.settled := by
  cases fate with
  | served =>
    obtain ⟨rfl, hreply⟩ := Prod.ext_iff.mp h
    have hcontains : s.settled.contains hash = true := Except.ok.inj hreply
    exact List.contains_iff_mem.mp hcontains
  | failed | unconfirmed => cases h

/-- A webhook that LNBits sent confirms the donation of its invoice. -/
theorem lnbitsWebhook_safe {invoice} (hinvoice : s.invoices[w.paymentHash]? = some invoice)
    (hechoes : Echoes invoice w) : Safe (confirming cfg terms) (fun _ _ => True) (lnbitsWebhook cfg (.ok w)) s := by
  unfold lnbitsWebhook
  split
  · exact Safe.ret fun _ _ _ => trivial
  unfold verifyWebhook
  split
  · exact Safe.ret fun _ _ _ => trivial
  refine Safe.call fun s₁ hinv₁ hrely₁ => ⟨trivial, fun s₂ r hanswer hinv₂ hrely₂ => ?_⟩
  dsimp only
  split
  · exact Safe.ret fun _ _ _ => trivial
  · exact Safe.ret fun _ _ _ => trivial
  -- the hash is settled, and the body says which donation its invoice is for
  obtain ⟨fate, -, hrequest⟩ := hanswer
  have hinvoice₂ := hrely₂.invoices _ _ (hrely₁.invoices _ _ hinvoice)
  obtain ⟨id, account, rfl, hformed⟩ := hinv₂.invoices _ _ hinvoice₂
  have hpaid : Paid s₂ id w.paymentHash := ⟨checkPayment_settled hrequest, _, hinvoice₂, rfl⟩
  obtain ⟨hid, hterms⟩ := hechoes.content hformed
  have hsettle : (settleByWebhook cfg (.ofPayload cfg w)).Uses fun q => ∀ s, Paid s id w.paymentHash → OnTerms cfg terms s q := by
    refine settleByWebhook_uses fun id' hid' s hpaid => ?_
    have hparsed : cfg.parseUuid id = some id' := hid ▸ hid'
    cases Option.some.inj (hformed.uuid.symm.trans hparsed)
    exact hpaid
  have hannounce : (announceByWebhook cfg (.ofPayload cfg w)).Uses fun q => ∀ s, Paid s id w.paymentHash → OnTerms cfg terms s q := by
    refine announceByWebhook_uses (fun q hq s _ => onTerms_of_plain hq) fun room s hpaid hash hhash => ?_
    cases Option.some.inj hhash
    rw [hid, hterms]
    exact ⟨hpaid, rfl⟩
  refine (Safe.of_uses_stable (A := fun s => Paid s id w.paymentHash) (fun _ _ h hkeeps => h.keeps hkeeps) (fun s q hA hq => hq s hA)
    (hsettle.bind fun _ => hannounce.bind fun _ => ?_) hpaid).weaken fun _ _ _ _ _ => trivial
  trivial

theorem program_confirms {k : PaymentJob} (hk : Genuine cfg terms s k) :
    Safe (confirming cfg terms) (fun _ _ => True) (k.program cfg) s := by
  by_cases hwebhook : ∃ n w, k = .lnbitsWebhook n (.ok w)
  · obtain ⟨n, w, rfl⟩ := hwebhook
    obtain ⟨invoice, hinvoice, hechoes⟩ := hk
    exact (lnbitsWebhook_safe hinvoice hechoes).bind fun _ _ _ _ _ => Safe.ret fun _ _ _ => trivial
  · have hother : ∀ n w, k ≠ .lnbitsWebhook n (.ok w) := fun n w heq => hwebhook ⟨n, w, heq⟩
    have hany : ∀ s, Genuine cfg terms s k := by
      intro s
      cases k with
      | lnbitsWebhook n body =>
        cases body with
        | ok w => exact absurd rfl (hother n w)
        | error e => trivial
      | createDonation n user req ids => exact hk
      | _ => trivial
    exact Safe.of_uses (fun _ q hq => onTerms_of_may hany hother hq) (program_may k)

/-- Only genuine jobs start. -/
def GenuineOnly (cfg : PaymentConfig) (terms : String → DonationTerms) (pool : PaymentPool) : PaymentPoolEvent → Prop
  | .start k => Genuine cfg terms pool.state k
  | _ => True

/-- **A Lightning donation is confirmed by its own payment**, when donations have ids of their
own and webhooks come from LNBits: the hash that is stored with a donation or was verified
before it was announced is settled and is the hash of the invoice made for that donation, and
what was announced is the stream, the donor and the amount of its row. -/
theorem confirmed_by_its_own_payment (cfg : PaymentConfig) (terms : String → DonationTerms) (now : Chrono.DateTime)
    (h : List PaymentPoolEvent) (pool : PaymentPool)
    (run : Run (paymentStep cfg) (fun _ pool e => GenuineOnly cfg terms pool e) (.start now) h pool) :
    (∀ (id : String) (row : Donation) (hash : String), pool.state.donations[id]? = some row → row.providerPaymentId = some hash →
      Paid pool.state id hash) ∧
    ∀ a ∈ pool.state.announced, ∀ hash, a.verified = some hash → Paid pool.state a.content.donationId hash ∧
      ∀ row, pool.state.donations[a.content.donationId]? = some row → a.content.terms = row.terms := by
  have run' : Run (paymentStep cfg) (fun _ pool e => PoolOk (confirming cfg terms) (Genuine cfg terms) pool e) (.start now) h pool :=
    run.mono fun _ pool e hok => by
      cases e with
      | start k => exact hok
      | request place fate => exact fun _ _ => trivial
      | move | die => trivial
  have hconfirmed : Confirmed cfg terms pool.state := by
    refine (Pool.sound (D := confirming cfg terms) (Q := fun _ _ _ => True) (fun k s _ hk => program_confirms hk) ?_ run').1
    exact ⟨fun _ _ h => by simp [start] at h, fun _ _ h => by simp [start] at h,
      nofun⟩
  refine ⟨fun id row hash hrow hhash => (hconfirmed.donations id row hrow).2 hash hhash, fun a ha hash hverified => ?_⟩
  obtain ⟨hpaid, hterms⟩ := hconfirmed.announced a ha hash hverified
  exact ⟨hpaid, fun row hrow => hterms.trans (hconfirmed.donations _ row hrow).1.symm⟩

/-! ## On fixed runs -/

instance decidableWellformed (cfg : PaymentConfig) (id : String) (t : DonationTerms) : Decidable (Wellformed cfg id t) :=
  decidable_of_iff (_ ∧ _ ∧ _ ∧ _)
    ⟨fun h => ⟨h.1, h.2.1, h.2.2.1, h.2.2.2⟩, fun h => ⟨h.uuid, h.plainId, h.plainStream, h.plainDonor⟩⟩

instance decidableEchoes (invoice : Invoice) (w : LNBitsWebhookPayload) : Decidable (Echoes invoice w) :=
  inferInstanceAs (Decidable (_ ∧ _))

instance decidableGenuine (cfg : PaymentConfig) (terms : String → DonationTerms) (s : PaymentState) :
    (k : PaymentJob) → Decidable (Genuine cfg terms s k)
  | .createDonation .. =>
    inferInstanceAs (Decidable (_ ∧ _))
  | .lnbitsWebhook _ (.ok w) => inferInstanceAs (Decidable (∃ invoice ∈ s.invoices[w.paymentHash]?, _))
  | .lnbitsWebhook _ (.error _) | .submitLightningProof .. | .stripeWebhook _ _ | .createTier ..
  | .createSubscription .. | .cancelSubscription .. => isTrue trivial

instance decidableGenuineOnly (cfg : PaymentConfig) (terms : String → DonationTerms) (pool : PaymentPool) :
    (e : PaymentPoolEvent) → Decidable (GenuineOnly cfg terms pool e)
  | .start k => inferInstanceAs (Decidable (Genuine cfg terms pool.state k))
  | .request _ _ | .move _ | .die => isTrue trivial

/-- Everything is switched on. -/
def fullPayments : PaymentConfig where
  features := ⟨true, true, true⟩
  minDonationCents := 100
  maxDonationCents := 50000
  paymentRegistry := true
  lightning := true
  stripe := true
  pgPool := true
  entitlementService := true
  stripeClient := true
  webhookSigningSecret := "whsec_0123456789abcdef0123456789abcdef"
  parseUuid := fun id => if Switch.isUuid id then some id else none
  extractPaymentHash := fun invoice => if invoice = "lnbc1" then .ok "h1" else if invoice = "lnbc2" then .ok "h2" else .error "no invoice"
  verifyPreimage := fun _ _ => .error .mismatch
  printFloat := fun _ => ""

/-- `@host` streams in `!room` and has a Stripe account. -/
def onAir : List PaymentPoolEvent :=
  [.move (.setRoom 1 ⟨"!room", 50⟩), .move (.setStream "s1" ⟨1, "@host", .active, none, 0, none⟩),
    .move (.setCreator "@host" ⟨some "acct_1", true, none⟩)]

def d1 : String := "3f2a1c9e-0000-4000-8000-0000000000d1"

def d2 : String := "3f2a1c9e-0000-4000-8000-0000000000d2"

/-- `@fan` asks for an invoice over five dollars. -/
def fanDonates : List PaymentPoolEvent :=
  .start (.createDonation 0 "@fan" ⟨"s1", 500, none, "lightning"⟩ ⟨d1, "h1", "cs_1", "lnbc1"⟩) :: List.replicate 5 (.request 0 .served)

def fanTerms (_ : String) : DonationTerms := ⟨"s1", "@fan", 500⟩

/-- LNBits' webhook for it. -/
def fanPaid : LNBitsWebhookPayload :=
  ⟨"h1", 7500, [("amount_sats", .str "7500"), ("creator_account_id", .str "acct_1"), ("donation_id", .str d1), ("stream_id", .str "s1"),
    ("donor_user_id", .str "@fan")]⟩

def fanPays : List PaymentPoolEvent :=
  onAir ++ fanDonates ++
    (.move (.settle "h1") :: .start (.lnbitsWebhook 1 (.ok fanPaid)) :: List.replicate 7 (.request 0 .served) : List PaymentPoolEvent)

def fanPool : PaymentPool := fanPays.foldl (paymentStep fullPayments) (.start 0)

theorem fanPays_follows :
    Follows (paymentStep fullPayments) (fun _ pool e => GenuineOnly fullPayments fanTerms pool e) [] (.start 0) fanPays ∧
    (fanPool.state.donations[d1]?).map (fun d => (d.status, d.providerPaymentId)) = some (.succeeded, some "h1") ∧
    fanPool.state.announced.map (fun a => (a.content.donationId, a.content.terms, a.verified)) = [(d1, ⟨"s1", "@fan", 500⟩, some "h1")] := by
  decide +kernel

theorem confirmed_by_fanPaid : Run (paymentStep fullPayments) (fun _ pool e => GenuineOnly fullPayments fanTerms pool e) (.start 0)
      (fanPays.reverse ++ []) fanPool ∧
    (fanPool.state.donations[d1]?).map Donation.providerPaymentId = some (some "h1") ∧ Paid fanPool.state d1 "h1" := by
  obtain ⟨hfollows, hrow, -⟩ := fanPays_follows
  have run := Run.start.follow hfollows
  obtain ⟨row, hrow, hstatus⟩ := Option.map_eq_some_iff.mp hrow
  have hhash : row.providerPaymentId = some "h1" := congrArg Prod.snd hstatus
  refine ⟨run, by rw [hrow, Option.map_some, hhash], ?_⟩
  exact (confirmed_by_its_own_payment fullPayments fanTerms 0 _ fanPool run).1 d1 row "h1" hrow hhash

/-- `@troll` asks for an invoice over 400 dollars and never pays it, but sends a webhook for it
with the hash that `@fan` paid. -/
def trollClaims : List PaymentPoolEvent :=
  onAir ++ fanDonates ++
    (.start (.createDonation 2 "@troll" ⟨"s1", 40000, none, "lightning"⟩ ⟨d2, "h2", "cs_2", "lnbc2"⟩) ::
      List.replicate 5 (.request 0 .served) : List PaymentPoolEvent) ++
    (.move (.settle "h1") ::
      .start (.lnbitsWebhook 3 (.ok ⟨"h1", 600000, [("donation_id", .str d2), ("stream_id", .str "s1"), ("donor_user_id", .str "@troll")]⟩)) ::
      List.replicate 7 (.request 0 .served) : List PaymentPoolEvent)

/-- A donation that nobody paid for is confirmed and announced with the payment of another. -/
theorem paid_by_another : ∃ h pool, Run (paymentStep fullPayments) (fun _ _ _ => True) (.start 0) h pool ∧
    (∃ row, pool.state.donations[d2]? = some row ∧ row.status = .succeeded ∧ row.providerPaymentId = some "h1") ∧
    (∃ a ∈ pool.state.announced, a.content.donationId = d2 ∧ a.verified = some "h1") ∧ ¬Paid pool.state d2 "h1" := by
  apply Run.exists_and_of_follows (P := fun pool => (pool.state.invoices["h1"]?).map (fun i => i.extra.lookup "donation_id") = some (some d1) ∧
    (pool.state.donations[d2]?).map (fun d => (d.status, d.providerPaymentId)) = some (.succeeded, some "h1") ∧
    ∃ a ∈ pool.state.announced, a.content.donationId = d2 ∧ a.verified = some "h1") trollClaims (by decide +kernel)
  rintro h pool - ⟨hinvoice, hrow, hannounced⟩
  obtain ⟨row, hrow, hvalues⟩ := Option.map_eq_some_iff.mp hrow
  simp only [Prod.mk.injEq] at hvalues
  refine ⟨⟨row, hrow, hvalues⟩, hannounced, ?_⟩
  · rintro ⟨-, invoice, hown, hid⟩
    rw [hown, Option.map_some, hid] at hinvoice
    exact absurd hinvoice (by decide)

end MatrixMedia.Monetization
