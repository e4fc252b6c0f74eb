import MatrixMedia.Monetization.Lightning

/-!
# Whether a paid checkout is lost

`stripe_webhook` records an event before it is handled and answers 200 however that went, so an
event is handled once: when it is handled too early, when its update fails, when the process
stops before the update, or when the record took effect without the handler knowing, the
checkout is lost for good (`lost_before_stored`). `no_checkout_lost` says that there is no
other way to lose one.
-/

namespace MatrixMedia.Monetization
open Lib Lib.Interaction Api PaymentState Option
open Std (TreeMap)
open Paywall (Subscription SubscriptionStatus)

variable {cfg : PaymentConfig} {stripe : String → StripeEvent} {s s' : PaymentState} {session : CheckoutSession}

/-- The session of a completed checkout. -/
def checkoutOf (event : StripeEvent) : Option CheckoutSession :=
  match event.type, event.object with
  | .checkoutSessionCompleted, .checkoutSession session => some session
  | _, _ => none

/-- What a completed checkout is for: the donation of a payment, the subscription of a
subscription. -/
structure Applied (s : PaymentState) (session : CheckoutSession) : Prop where
  donations : session.mode ≠ .subscription → ∀ (id : String) (row : Donation), s.donations[id]? = some row →
    row.stripeSessionId = some session.id → row.status = .succeeded
  subscriptions : session.mode = .subscription → ∀ (id : String) (row : Subscription), s.tables.subscriptions[id]? = some row →
    s.checkouts[id]? = some session.id → row.status = .active

/-- The request that brings it about. -/
def effectOf (session : CheckoutSession) : PaymentRequest :=
  if session.mode = .subscription then .activateSubscription session.id (session.subscription.getD session.id) session.room
  else .updateDonationStatus session.id .succeeded session.paymentIntent

theorem effectOf_subscription (h : session.mode = .subscription) :
    effectOf session = .activateSubscription session.id (session.subscription.getD session.id) session.room := if_pos h

theorem effectOf_payment (h : session.mode ≠ .subscription) :
    effectOf session = .updateDonationStatus session.id .succeeded session.paymentIntent := if_neg h

/-- The handler makes the request at all: a subscription is activated through the pool. -/
def Handled (cfg : PaymentConfig) (session : CheckoutSession) : Prop := session.mode = .subscription → cfg.pgPool = true

/-! ## The order of a handler -/

/-- The request is no record of an event. -/
def NoRecord : PaymentRequest → Prop
  | .recordWebhookEvent _ _ => False
  | _ => True

/-- After the record of a completed checkout comes its effect. -/
def EffectNext (cfg : PaymentConfig) (stripe : String → StripeEvent) {α : Type} :
    (q : PaymentRequest) → (q.Reply → PaymentAction α) → Prop
  | .recordWebhookEvent id _, next => ∀ session, checkoutOf (stripe id) = some session → Handled cfg session →
      ∃ rest, next (.ok true) = .call (effectOf session) rest
  | _, _ => True

variable {α : Type} {q : PaymentRequest} {k : PaymentJob}

theorem effectNext_of_noRecord (q : PaymentRequest) (next : q.Reply → PaymentAction α) (h : NoRecord q) :
    EffectNext cfg stripe q next := by
  cases q <;> trivial

theorem noRecord_of_plain (h : q.Plain) : NoRecord q := by
  cases q <;> trivial

theorem noRecord_of_writes {event : StripeEvent} (h : event.Writes q) : NoRecord q := by
  cases h <;> trivial

theorem noRecord_of_may (hk : ∀ n d, k ≠ .stripeWebhook n d) (hq : k.May cfg q) : NoRecord q := by
  cases hq.asks with
  | plain hplain => exact noRecord_of_plain hplain
  | record | stripe => exact absurd rfl (hk _ _)
  | _ => trivial

/-- A completed checkout is handled by its effect first. -/
theorem handleEvent_effect {event} (hcheckout : checkoutOf event = some session) (hhandled : Handled cfg session) :
    ∃ rest, handleEvent cfg event = .call (effectOf session) rest := by
  have hhandle : handleEvent cfg event = handleCheckoutCompleted cfg session := by
    unfold checkoutOf at hcheckout
    unfold handleEvent
    split at hcheckout
    · rename_i session' htype hobject
      cases hcheckout
      rw [htype, hobject]
    · cases hcheckout
  rw [hhandle]
  unfold handleCheckoutCompleted
  split
  · rename_i hmode
    unfold handleSubscriptionCheckoutCompleted
    rw [if_pos (hhandled hmode), effectOf_subscription hmode]
    exact ⟨_, rfl⟩
  · rename_i hmode
    rw [effectOf_payment hmode]
    exact ⟨_, rfl⟩

theorem bind_call {β : Type} {p : PaymentAction α} {f : α → PaymentAction β} (h : ∃ rest, p = .call q rest) :
    ∃ rest, p.bind f = .call q rest := by
  obtain ⟨rest, rfl⟩ := h
  exact ⟨_, rfl⟩

theorem program_effectNext (hk : ∀ n d event, k = .stripeWebhook n d → d.event = .ok event → event = stripe event.id) :
    (k.program cfg).Every (EffectNext cfg stripe) := by
  by_cases hwebhook : ∃ n d, k = .stripeWebhook n d
  · obtain ⟨n, d, rfl⟩ := hwebhook
    have hevery : ∀ p : PaymentAction PaymentOutcome, (p.Uses NoRecord) → p.Every (EffectNext cfg stripe) :=
      fun p huses => Prog.Every.of_uses effectNext_of_noRecord huses
    simp only [PaymentJob.program, respondWith, stripeWebhook]
    cases cfg.features.requireMonetization with
    | error e => trivial
    | ok u =>
      dsimp only [orRefuse]
      split
      · trivial
      split
      · trivial
      split
      · trivial
      rename_i event hevent
      refine ⟨fun session hsession hhandled => ?_, fun r => hevery _ ?_⟩
      · have hsame := hk n d event rfl hevent
        rw [← hsame] at hsession
        exact bind_call (bind_call (handleEvent_effect hsession hhandled))
      · refine Prog.Uses.bind (uses_orError fun isNew => ?_) fun _ => trivial
        split
        · refine (handleEvent_uses.mono fun q hq => ?_).bind fun _ => trivial
          exact hq.elim noRecord_of_plain noRecord_of_writes
        · trivial
  · have hother : ∀ n d, k ≠ .stripeWebhook n d := fun n d heq => hwebhook ⟨n, d, heq⟩
    exact Prog.Every.of_uses effectNext_of_noRecord ((program_may k).mono fun q hq => noRecord_of_may hother hq)

/-! ## The rows -/

/-- Nothing is cancelled, statuses are written as `succeeded`, and subscriptions are inserted
incomplete, through the pool, under their session. -/
def Sells (cfg : PaymentConfig) : PaymentRequest → Prop
  | .updateDonationStatus _ status _ => status = .succeeded
  | .insertSubscription _ row => cfg.pgPool = true ∧ row.status = .incomplete ∧ row.stripeSubscriptionId.isSome
  | .cancelSubscription _ | .deleteSubscription _ => False
  | _ => True

/-- A subscription is active, or incomplete and under the session it was inserted with. -/
structure Sold (cfg : PaymentConfig) (s : PaymentState) : Prop where
  pool : ∀ (id : String) (row : Subscription), s.tables.subscriptions[id]? = some row → cfg.pgPool = true
  subscriptions : ∀ (id : String) (row : Subscription), s.tables.subscriptions[id]? = some row →
    row.status = .active ∨ row.status = .incomplete ∧ row.stripeSubscriptionId = s.checkouts[id]?

theorem activate_active {newId periodEnd room} {x : Subscription} {id}
    (h : x.status = .active) : (activate id newId periodEnd room x).status = .active := by
  unfold activate
  split
  · rfl
  · exact h

theorem Sold.effect (h : Sold cfg s) (hq : Sells cfg q) (heffect : s.Effect q s') : Sold cfg s' := by
  cases heffect with
  | @subscribed id row fresh =>
    obtain ⟨hpool, hstatus, hsession⟩ := hq
    refine ⟨fun _ _ _ => hpool, fun id' row' hrow => ?_⟩
    dsimp only at hrow ⊢
    rw [Table.getElem?_insert] at hrow ⊢
    split at hrow
    · rename_i heq
      cases hrow
      obtain ⟨session, hsession⟩ := isSome_iff_exists.mp hsession
      rw [if_pos heq, hsession]
      exact .inr ⟨hstatus, rfl⟩
    · rename_i hne
      rw [if_neg hne]
      exact h.subscriptions id' row' hrow
  | @activated session newId room =>
    refine ⟨fun id row hrow => ?_, fun id row hrow => ?_⟩
    · obtain ⟨old, hold, -⟩ := map_eq_some_iff.mp (TreeMap.getElem?_map.symm.trans hrow)
      exact h.pool id old hold
    · obtain ⟨old, hold, rfl⟩ := map_eq_some_iff.mp (TreeMap.getElem?_map.symm.trans hrow)
      rcases h.subscriptions id old hold with hactive | hincomplete
      · exact .inl (activate_active hactive)
      · unfold activate
        split
        · exact .inl rfl
        · exact .inr hincomplete
  | cancelled | deleted => exact hq.elim
  | _ => exact ⟨h.pool, h.subscriptions⟩

theorem Sold.move (h : Sold cfg s) (m : PaymentMove) : Sold cfg (s.move m) := by
  cases m <;> exact ⟨h.pool, h.subscriptions⟩

/-- The rows of a session are stored before its event is recorded. -/
def StoredFirst (stripe : String → StripeEvent) (s : PaymentState) (key : Option String) : Prop :=
  ∀ x ∈ s.webhookLog.toList, ∀ session ∈ checkoutOf (stripe x.1), key ≠ some session.id

/-- A checkout that took effect stays so. -/
theorem Applied.effect (h : Applied s session) (hq : Sells cfg q)
    (hdonation : ∀ id row, q = .insertDonation id row → row.stripeSessionId ≠ some session.id)
    (hsubscription : ∀ id row, q = .insertSubscription id row → row.stripeSubscriptionId ≠ some session.id)
    (heffect : s.Effect q s') : Applied s' session := by
  cases heffect with
  | @donated id row fresh =>
    refine ⟨fun hmode id' row' hrow hsession => ?_, h.subscriptions⟩
    rw [Table.getElem?_insert] at hrow
    split at hrow
    · cases hrow
      exact absurd hsession (hdonation id row rfl)
    · exact h.donations hmode id' row' hrow hsession
  | @updated key status intent =>
    refine ⟨fun hmode id row hrow hsession => ?_, h.subscriptions⟩
    obtain ⟨old, hold, rfl⟩ := map_eq_some_iff.mp (TreeMap.getElem?_map.symm.trans hrow)
    unfold setStatus at hsession ⊢
    split
    · exact hq
    · rename_i hother
      rw [if_neg hother] at hsession
      exact h.donations hmode id old hold hsession
  | @settled id hash =>
    refine ⟨fun hmode id' row hrow hsession => ?_, h.subscriptions⟩
    rw [Table.getElem?_modify] at hrow
    split at hrow
    · obtain ⟨old, -, rfl⟩ := map_eq_some_iff.mp hrow
      rfl
    · exact h.donations hmode id' row hrow hsession
  | @subscribed id row fresh =>
    refine ⟨h.donations, fun hmode id' row' hrow hcheckout => ?_⟩
    obtain ⟨-, -, hsome⟩ := hq
    dsimp only at hrow hcheckout
    rw [Table.getElem?_insert] at hrow hcheckout
    split at hrow
    · rename_i heq
      rw [if_pos heq] at hcheckout
      obtain ⟨key, hkey⟩ := isSome_iff_exists.mp hsome
      rw [hkey, getD_some] at hcheckout
      exact absurd (hkey.trans hcheckout) (hsubscription id row rfl)
    · rename_i hne
      rw [if_neg hne] at hcheckout
      exact h.subscriptions hmode id' row' hrow hcheckout
  | activated =>
    refine ⟨h.donations, fun hmode id row hrow hcheckout => ?_⟩
    obtain ⟨old, hold, rfl⟩ := map_eq_some_iff.mp (TreeMap.getElem?_map.symm.trans hrow)
    exact activate_active (h.subscriptions hmode id old hold hcheckout)
  | cancelled | deleted => exact hq.elim
  | _ => exact ⟨h.donations, h.subscriptions⟩

theorem Applied.move (h : Applied s session) (m : PaymentMove) : Applied (s.move m) session := by
  cases m <;> exact ⟨h.donations, h.subscriptions⟩

/-- The effect does what it is for. -/
theorem applied_of_effect (hsold : Sold cfg s) {fate : CallFate} (hfate : fate.applied = true) :
    Applied (s.request (effectOf session) fate).1 session := by
  by_cases hmode : session.mode = .subscription
  · have hstate : (s.request (.activateSubscription session.id (session.subscription.getD session.id) session.room) fate).1 =
        s.updateSubscriptions (activate session.id (session.subscription.getD session.id) (s.utcNow + days 30)
          session.room) := by
      simp [request, write, hfate]
    rw [effectOf_subscription hmode, hstate]
    refine ⟨fun hother => absurd hmode hother, fun _ id row hrow hcheckout => ?_⟩
    obtain ⟨old, hold, rfl⟩ := map_eq_some_iff.mp (TreeMap.getElem?_map.symm.trans hrow)
    rcases hsold.subscriptions id old hold with hactive | ⟨hincomplete, hkey⟩
    · exact activate_active hactive
    · have hawaits : awaits session.id old = true := by
        simp only [awaits, decide_eq_true_eq]
        exact ⟨hkey.trans hcheckout, hincomplete⟩
      simp [activate, hawaits]
  · have hstate : (s.request (.updateDonationStatus session.id .succeeded session.paymentIntent) fate).1 =
        s.updateDonations (setStatus session.id .succeeded session.paymentIntent) := by
      simp [request, write, hfate]
    rw [effectOf_payment hmode, hstate]
    refine ⟨fun _ id row hrow hsession => ?_, fun hother => absurd hother hmode⟩
    obtain ⟨old, -, rfl⟩ := map_eq_some_iff.mp (TreeMap.getElem?_map.symm.trans hrow)
    unfold setStatus at hsession ⊢
    split
    · rfl
    · rename_i hother
      rw [if_neg hother] at hsession
      exact absurd hsession hother

/-! ## Runs in which nothing is lost -/

section
variable (stripe : String → StripeEvent)

/-- Events are Stripe's own, one for each id, and nothing is cancelled. -/
def Selling : PaymentJob → Prop
  | .stripeWebhook _ d => ∀ event ∈ d.event.toOption, event = stripe event.id ∧ event.type ≠ .customerSubscriptionDeleted
  | .cancelSubscription .. => False
  | _ => True

/-- A record that took effect is known to have done so, an effect does not fail, and rows are
stored before their event is recorded. -/
def InTime (s : PaymentState) : PaymentRequest → CallFate → Prop
  | .recordWebhookEvent _ _, fate => fate.applied = true → fate = .served
  | .updateDonationStatus _ _ _, fate | .activateSubscription _ _ _, fate => fate.applied = true
  | .insertDonation _ row, _ => StoredFirst stripe s row.stripeSessionId
  | .insertSubscription _ row, _ => StoredFirst stripe s row.stripeSubscriptionId
  | _, _ => True

/-- The program is about to bring a checkout about. -/
def Midway {α : Type} : PaymentAction α → Prop
  | .call (.updateDonationStatus ..) _ | .call (.activateSubscription ..) _ => True
  | _ => False

/-- The ways to lose a checkout are closed. -/
def InOrder (pool : PaymentPool) : PaymentPoolEvent → Prop
  | .start k => Selling stripe k
  | .request place fate => ∀ q ∈ pool.next? place, InTime stripe pool.state q fate
  | .move _ => True
  | .die => ∀ x ∈ pool.running, ¬Midway x.2

end

theorem midway_effectOf (rest : (effectOf session).Reply → PaymentAction α) : Midway (.call (effectOf session) rest) := by
  revert rest
  by_cases hmode : session.mode = .subscription
  · rw [effectOf_subscription hmode]
    exact fun _ => trivial
  · rw [effectOf_payment hmode]
    exact fun _ => trivial

theorem sells_of_plain (h : q.Plain) : Sells cfg q := by
  cases q <;> trivial

theorem sells_of_may (hk : Selling stripe k) (hq : k.May cfg q) : Sells cfg q := by
  cases hq.asks with
  | plain hplain => exact sells_of_plain hplain
  | proof => rfl
  | @stripe _ _ event _ hevent hwrites =>
    cases hwrites with
    | update session intent => rfl
    | delete htype id => exact absurd htype (hk event (by rw [hevent]; rfl)).2
    | _ => trivial
  | subscription hpool => exact ⟨hpool, rfl, rfl⟩
  | cancel => exact hk.elim
  | _ => trivial

/-- Some program in flight makes the effect its next request. -/
def Awaited (pool : PaymentPool) (session : CheckoutSession) : Prop :=
  ∃ (place : Nat) (k : PaymentJob) (rest : (effectOf session).Reply → PaymentAction PaymentOutcome),
    pool.running[place]? = some (k, .call (effectOf session) rest)

/-- What a running program will do. -/
def InFlight (cfg : PaymentConfig) (stripe : String → StripeEvent) (_ : PaymentJob) (p : PaymentAction PaymentOutcome) : Prop :=
  p.Every (EffectNext cfg stripe) ∧ p.Uses (Sells cfg)

/-- Every recorded checkout took effect or is about to. -/
structure Kept (cfg : PaymentConfig) (stripe : String → StripeEvent) (pool : PaymentPool) : Prop where
  running : pool.Each (InFlight cfg stripe)
  sold : Sold cfg pool.state
  recorded : ∀ (id : String) session, (pool.state.webhookLog[id]?).isSome → checkoutOf (stripe id) = some session →
    Applied pool.state session ∨ Awaited pool session

section
variable {pool : PaymentPool}

variable {id : String} {q : PaymentRequest} {fate : CallFate}

theorem inFlight_rest {k next} (r : q.Reply)
    (h : InFlight cfg stripe k (.call q next)) : InFlight cfg stripe k (next r) :=
  ⟨h.1.2 r, h.2.2 r⟩

/-- A program is put back at the front. -/
theorem Awaited.put (h : Awaited pool session) (k : PaymentJob) (p : PaymentAction PaymentOutcome) : Awaited (pool.put k p) session := by
  obtain ⟨place, k', rest, hplace⟩ := h
  cases p with
  | ret a => exact ⟨place, k', rest, hplace⟩
  | call q next => exact ⟨place + 1, k', rest, hplace⟩

/-- The log grows by the event that is recorded, and by nothing else. -/
theorem PaymentState.Effect.wrote (heffect : s.Effect q s') (h : (s'.webhookLog[id]?).isSome) :
    (s.webhookLog[id]?).isSome ∨ ∃ eventType, q = .recordWebhookEvent id eventType := by
  cases heffect with
  | @logged id' eventType fresh =>
    dsimp only at h
    rw [Table.getElem?_insert] at h
    split at h
    · rename_i heq
      exact .inr ⟨eventType, by rw [heq]⟩
    · exact .inl h
  | _ => exact .inl h

/-- A record that is not unconfirmed and is new tells the handler so. -/
theorem recorded_reply {eventType} (hfate : fate.applied = true → fate = .served)
    (hfresh : ¬(s.webhookLog[id]?).isSome)
    (hlogged : ((s.request (.recordWebhookEvent id eventType) fate).1.webhookLog[id]?).isSome) :
    (s.request (.recordWebhookEvent id eventType) fate).2 = .ok true := by
  simp only [request, if_neg hfresh] at hlogged ⊢
  cases fate with
  | served => rfl
  | failed e => exact absurd hlogged hfresh
  | unconfirmed e => cases hfate rfl

/-- What the request of one program leaves of the checkouts that were recorded before. -/
theorem Kept.others (h : Kept cfg stripe pool) {place k next} (hplace : pool.running[place]? = some (k, .call q next))
    (htime : InTime stripe pool.state q fate) (hlogged : (pool.state.webhookLog[id]?).isSome)
    (hsession : checkoutOf (stripe id) = some session) {p} :
    Applied (pool.state.request q fate).1 session ∨
      Awaited ({ pool with state := (pool.state.request q fate).1, running := pool.running.eraseIdx place }.put k p) session := by
  have hq : Sells cfg q := (h.running k _ (List.mem_of_getElem? hplace)).2.1
  have hbefore : ∀ key, StoredFirst stripe pool.state key → key ≠ some session.id := by
    intro key hstored
    obtain ⟨eventType, hentry⟩ := isSome_iff_exists.mp hlogged
    exact hstored (id, eventType) (Table.mem_toList.mpr hentry) session hsession
  rcases h.recorded id session hlogged hsession with happlied | ⟨place', k', rest, hplace'⟩
  · refine .inl (happlied.effect hq ?_ ?_ (pool.state.request_effect q fate))
    · rintro id row rfl
      exact hbefore _ htime
    · rintro id row rfl
      exact hbefore _ htime
  · by_cases hsame : place' = place
    · -- it was this program that was waited for
      subst hsame
      cases hplace.symm.trans hplace'
      have hfate : fate.applied = true := by
        by_cases hmode : session.mode = .subscription
        · rwa [effectOf_subscription hmode] at htime
        · rwa [effectOf_payment hmode] at htime
      exact .inl (applied_of_effect h.sold hfate)
    · right
      have hstill : Awaited { pool with state := (pool.state.request q fate).1, running := pool.running.eraseIdx place } session := by
        obtain ⟨place'', hplace''⟩ := List.mem_iff_getElem?.mp (List.mem_eraseIdx_iff_getElem?.mpr ⟨place', hsame, hplace'⟩)
        exact ⟨place'', k', rest, hplace''⟩
      exact hstill.put k p

theorem Kept.step (h : Kept cfg stripe pool) {e} (hok : InOrder stripe pool e) :
    Kept cfg stripe (paymentStep cfg pool e) := by
  have hrunning : (paymentStep cfg pool e).Each (InFlight cfg stripe) := by
    refine Pool.Each.step (fun _ _ _ r => inFlight_rest r) h.running e fun k heq => ?_
    subst heq
    have hselling : Selling stripe k := hok
    refine ⟨program_effectNext fun n d event hk hevent => ?_, (program_may k).mono fun q hq => sells_of_may hselling hq⟩
    subst hk
    exact (hselling event (by rw [hevent]; rfl)).1
  refine ⟨hrunning, ?_, ?_⟩
  · cases e with
    | start k => exact (pool.put_state k _).symm ▸ h.sold
    | move m => exact h.sold.move m
    | die => exact h.sold
    | request place fate =>
      simp only [paymentStep, poolStep]
      split
      · rename_i k q next hplace
        rw [Pool.put_state]
        exact h.sold.effect (h.running k _ (List.mem_of_getElem? hplace)).2.1 (pool.state.request_effect q fate)
      · exact h.sold
  · intro id session hlogged hsession
    cases e with
    | start k =>
      have hstate : (paymentStep cfg pool (.start k)).state = pool.state := pool.put_state k _
      rw [hstate] at hlogged ⊢
      exact (h.recorded id session hlogged hsession).imp_right fun hawaited => hawaited.put k _
    | move m =>
      have hlog : ((pool.state.move m).webhookLog[id]?).isSome = (pool.state.webhookLog[id]?).isSome := by cases m <;> rfl
      exact (h.recorded id session (hlog ▸ hlogged) hsession).imp (fun happlied => Applied.move happlied m) fun hawaited => hawaited
    | die =>
      refine (h.recorded id session hlogged hsession).imp_right ?_
      rintro ⟨place, k, rest, hplace⟩
      exact absurd (midway_effectOf rest) (hok _ (List.mem_of_getElem? hplace))
    | request place fate =>
      cases hplace : pool.running[place]? with
      | none =>
        simp only [paymentStep, poolStep, hplace] at hlogged ⊢
        exact h.recorded id session hlogged hsession
      | some x =>
        obtain ⟨k, p⟩ := x
        cases p with
        | ret a =>
          simp only [paymentStep, poolStep, hplace] at hlogged ⊢
          exact h.recorded id session hlogged hsession
        | call q next =>
          have htime : InTime stripe pool.state q fate := hok q (by simp [Pool.next?, hplace])
          simp only [paymentStep, poolStep, hplace, Pool.put_state] at hlogged ⊢
          by_cases hbefore : (pool.state.webhookLog[id]?).isSome
          · exact h.others hplace htime hbefore hsession
          · -- the event is recorded just now, and its program goes on with the effect
            obtain ⟨eventType, rfl⟩ := ((pool.state.request_effect _ _).wrote hlogged).resolve_left hbefore
            have hreply := recorded_reply htime hbefore hlogged
            have hnext := (h.running k _ (List.mem_of_getElem? hplace)).1.1 session hsession
            by_cases hhandled : Handled cfg session
            · obtain ⟨rest, hrest⟩ := hnext hhandled
              right
              refine ⟨0, k, rest, ?_⟩
              show ((Pool.put _ k (next (pool.state.request (.recordWebhookEvent id eventType) fate).2)).running)[0]? = _
              rw [hreply, hrest]
              rfl
            · -- without a pool there are no subscriptions
              have hmode : session.mode = .subscription := Classical.not_imp.mp hhandled |>.1
              have hsells : Sells cfg (.recordWebhookEvent id eventType) := trivial
              have hsold := h.sold.effect hsells (pool.state.request_effect _ fate)
              exact .inl ⟨fun hother => absurd hmode hother, fun _ id' row hrow _ =>
                absurd (fun _ => hsold.pool id' row hrow) hhandled⟩

end

/-! ## What is answered is recorded -/

def Logged (id : String) (s : PaymentState) : Prop := (s.webhookLog[id]?).isSome

/-- The log only grows. -/
def LogGrows (s s' : PaymentState) : Prop := ∀ id, Logged id s → Logged id s'

theorem PaymentState.Effect.logGrows (heffect : s.Effect q s') : LogGrows s s' := by
  cases heffect with
  | logged fresh => exact fun id h => Table.isSome_insert _ _ h
  | _ => exact fun _ h => h

def logging : Discipline paymentService where
  inv := fun _ => True
  rely := LogGrows
  allowed := fun _ _ => True
  admits := fun _ _ _ => True
  moves := fun _ _ => True
  rely_refl := fun _ _ h => h
  rely_trans := fun h₁ h₂ id h => h₂ id (h₁ id h)
  request_keeps := fun {s q fate} _ _ _ => ⟨trivial, (s.request_effect q fate).logGrows⟩
  move_keeps := fun {_ m} _ _ => ⟨trivial, by cases m <;> exact fun _ h => h⟩

theorem logged_of_reply {id eventType fate isNew}
    (h : s.request (.recordWebhookEvent id eventType) fate = (s', .ok isNew)) : Logged id s' := by
  simp only [request] at h
  split at h
  · rename_i hlogged
    obtain ⟨rfl, -⟩ := Prod.mk.inj h
    exact hlogged
  · cases fate with
    | served =>
      obtain ⟨rfl, -⟩ := Prod.mk.inj h
      show ((s.webhookLog.insert id eventType)[id]?).isSome
      rw [Table.getElem?_insert, if_pos rfl]
      rfl
    | failed | unconfirmed => cases h

theorem stripeWebhook_logs {d : Delivery} :
    Safe logging (Returns fun _ s => ∀ event, d.event = .ok event → Logged event.id s) (stripeWebhook cfg d) s := by
  unfold stripeWebhook
  cases cfg.features.requireMonetization with
  | error e => exact Safe.error e
  | ok u =>
    dsimp only [orRefuse]
    split
    · exact Safe.error _
    split
    · exact Safe.error _
    split
    · exact Safe.error _
    rename_i event hevent
    refine Safe.call fun s₁ _ _ => ⟨trivial, fun s₂ r hanswer _ _ => safe_orError fun isNew hr => ?_⟩
    subst hr
    obtain ⟨fate, -, hrequest⟩ := hanswer
    have hlogged : Logged event.id s₂ := logged_of_reply hrequest
    have huses : ∀ p : PaymentHandler Unit, p.Uses fun _ => True := by
      intro p
      induction p with
      | ret a => trivial
      | call q next ih => exact ⟨trivial, ih⟩
    refine (Safe.of_uses_stable (D := logging) (A := Logged event.id) (fun _ _ h hgrows => hgrows event.id h) (fun _ _ _ _ => trivial)
      (huses _) hlogged).weaken fun _ _ _ _ h _ _ event' hevent' => ?_
    cases hevent.symm.trans hevent'
    exact h

/-- What an answer to Stripe means. -/
def Answered (stripe : String → StripeEvent) : PaymentJob → PaymentOutcome → PaymentState → Prop
  | .stripeWebhook _ d, .ok _, s => ∀ event, d.event = .ok event → event = stripe event.id ∧ Logged event.id s
  | _, _, _ => True

theorem program_answers (hk : Selling stripe k) : Safe logging (Answered stripe k) (k.program cfg) s := by
  cases k with
  | stripeWebhook n d =>
    refine stripeWebhook_logs.bind fun r s₁ _ _ hr => Safe.ret fun s₂ _ hgrows => ?_
    cases r with
    | error e => trivial
    | ok u => exact fun event hevent => ⟨(hk event (by rw [hevent]; rfl)).1, hgrows _ (hr u rfl event hevent)⟩
  | _ => exact (Safe.of_uses (P := PaymentJob.May cfg _) (fun _ _ _ => trivial) (program_may _)).weaken fun _ _ _ _ _ => trivial

/-- **No paid checkout is lost**, when the ways to lose one are closed: rows are stored before
the event of their session is recorded, a record that took effect is known to have done so, the
update of a row does not fail, and the process does not stop right before one. Then whenever no
handler is running and an event was answered with success, the donation or the subscription of
its session has succeeded or is active. -/
theorem no_checkout_lost (cfg : PaymentConfig) (stripe : String → StripeEvent) (now : Chrono.DateTime) (h : List PaymentPoolEvent)
    (pool : PaymentPool) (run : Run (paymentStep cfg) (fun _ pool e => InOrder stripe pool e) (.start now) h pool)
    (hquiet : pool.running = []) :
    ∀ n d r event session, (.stripeWebhook n d, .ok r) ∈ pool.returned → d.event = .ok event → checkoutOf event = some session →
      Applied pool.state session := by
  intro n d r event session hreturned hevent hsession
  have hkept : Kept cfg stripe pool := by
    refine run.invariant (I := fun _ pool => Kept cfg stripe pool) ?_ fun _ _ _ _ hok hkept => hkept.step hok
    exact ⟨fun _ _ hmem => absurd hmem List.not_mem_nil,
      ⟨fun _ _ hrow => by simp [PaymentPool.start, start] at hrow,
        fun _ _ hrow => by simp [PaymentPool.start, start] at hrow⟩,
      fun _ _ hlogged => by simp [PaymentPool.start, start] at hlogged⟩
  have run' : Run (paymentStep cfg) (fun _ pool e => PoolOk logging (fun _ k => Selling stripe k) pool e) (.start now) h pool :=
    run.mono fun _ pool e hok => by
      cases e with
      | start k => exact hok
      | request place fate => exact fun _ _ => trivial
      | move | die => trivial
  obtain ⟨-, hanswered⟩ := Pool.sound (D := logging) (Q := Answered stripe) (fun k s _ hk => program_answers hk) trivial run'
  obtain ⟨hsame, hlogged⟩ := hanswered _ _ hreturned event hevent
  rcases hkept.recorded event.id session hlogged (hsame ▸ hsession) with happlied | ⟨place, k, rest, hplace⟩
  · exact happlied
  · rw [hquiet] at hplace
    cases hplace

instance Selling.decidable (stripe : String → StripeEvent) : (k : PaymentJob) → Decidable (Selling stripe k)
  | .stripeWebhook _ d => inferInstanceAs (Decidable (∀ event ∈ d.event.toOption, _))
  | .cancelSubscription .. => isFalse id
  | .createDonation .. | .lnbitsWebhook _ _ | .submitLightningProof .. | .createTier ..
  | .createSubscription .. => isTrue trivial

instance StoredFirst.decidable (stripe : String → StripeEvent) (s : PaymentState) (key : Option String) :
    Decidable (StoredFirst stripe s key) :=
  inferInstanceAs (Decidable (∀ x ∈ s.webhookLog.toList, _))

instance InTime.decidable (stripe : String → StripeEvent) (s : PaymentState) (q : PaymentRequest) (fate : CallFate) :
    Decidable (InTime stripe s q fate) := by
  unfold InTime
  split <;> infer_instance

instance Midway.decidable {α : Type} (p : PaymentAction α) : Decidable (Midway p) := by
  unfold Midway
  split <;> infer_instance

instance InOrder.decidable (stripe : String → StripeEvent) (pool : PaymentPool) : (e : PaymentPoolEvent) → Decidable (InOrder stripe pool e)
  | .start k => inferInstanceAs (Decidable (Selling stripe k))
  | .request place _ => inferInstanceAs (Decidable (∀ q ∈ pool.next? place, _))
  | .move _ => isTrue trivial
  | .die => inferInstanceAs (Decidable (∀ x ∈ pool.running, _))

/-- The checkout of `@fan`'s donation. -/
def fanSession : CheckoutSession := ⟨"cs_1", .payment, some "pi_1", none, none⟩

def fanCompleted (id : String) : StripeEvent := ⟨id, .checkoutSessionCompleted, .checkoutSession fanSession⟩

def fanDelivery : Delivery := ⟨true, .ok (fanCompleted "evt_1")⟩

/-- `@fan` donates five dollars by card, pays, and Stripe tells. -/
def fanChecksOut : List PaymentPoolEvent :=
  onAir ++
    (.start (.createDonation 0 "@fan" ⟨"s1", 500, none, "stripe"⟩ ⟨d1, "h1", "cs_1", "https://pay"⟩) ::
      List.replicate 5 (.request 0 .served) : List PaymentPoolEvent) ++
    (.start (.stripeWebhook 1 fanDelivery) :: List.replicate 2 (.request 0 .served) : List PaymentPoolEvent)

def fanCheckedOut : PaymentPool := fanChecksOut.foldl (paymentStep fullPayments) (.start 0)

theorem fanChecksOut_follows :
    Follows (paymentStep fullPayments) (fun _ pool e => InOrder fanCompleted pool e) [] (.start 0) fanChecksOut ∧
    fanCheckedOut.running = [] ∧ (.stripeWebhook 1 fanDelivery, .ok .done) ∈ fanCheckedOut.returned ∧
    (fanCheckedOut.state.donations[d1]?).bind Donation.stripeSessionId = some "cs_1" := by
  decide +kernel

theorem no_checkout_lost_fan : Run (paymentStep fullPayments) (fun _ pool e => InOrder fanCompleted pool e) (.start 0)
      (fanChecksOut.reverse ++ []) fanCheckedOut ∧
    ∃ row, fanCheckedOut.state.donations[d1]? = some row ∧ row.status = .succeeded := by
  obtain ⟨hfollows, hquiet, hreturned, hsession⟩ := fanChecksOut_follows
  have run := Run.start.follow hfollows
  obtain ⟨row, hrow, hsession⟩ := bind_eq_some_iff.mp hsession
  have happlied := no_checkout_lost fullPayments fanCompleted 0 _ fanCheckedOut run hquiet 1 fanDelivery .done (fanCompleted "evt_1") fanSession
    hreturned rfl rfl
  exact ⟨run, row, hrow, happlied.donations (by decide) d1 row hrow hsession⟩

/-- The webhook comes before the row of its donation is stored, and again after that. -/
def tooEarly : List PaymentPoolEvent :=
  onAir ++
    (.start (.createDonation 0 "@fan" ⟨"s1", 500, none, "stripe"⟩ ⟨d1, "h1", "cs_1", "https://pay"⟩) ::
      List.replicate 4 (.request 0 .served) : List PaymentPoolEvent) ++
    (.start (.stripeWebhook 1 fanDelivery) :: List.replicate 3 (.request 0 .served) : List PaymentPoolEvent) ++
    ([.start (.stripeWebhook 2 fanDelivery), .request 0 .served] : List PaymentPoolEvent)

/-- Both deliveries are answered with success, and the donation stays pending. -/
theorem lost_before_stored : ∃ h pool, Run (paymentStep fullPayments) (fun _ _ _ => True) (.start 0) h pool ∧ pool.running = [] ∧
    (.stripeWebhook 1 fanDelivery, .ok .done) ∈ pool.returned ∧ (.stripeWebhook 2 fanDelivery, .ok .done) ∈ pool.returned ∧
    ¬Applied pool.state fanSession := by
  apply Run.exists_and_of_follows (P := fun pool => pool.running = [] ∧
    (.stripeWebhook 1 fanDelivery, .ok .done) ∈ pool.returned ∧ (.stripeWebhook 2 fanDelivery, .ok .done) ∈ pool.returned ∧
    (pool.state.donations[d1]?).map (fun d => (d.stripeSessionId, d.status)) = some (some "cs_1", .pending)) tooEarly (by decide +kernel)
  rintro h pool - ⟨hquiet, hfirst, hsecond, hrow⟩
  refine ⟨hquiet, hfirst, hsecond, fun happlied => ?_⟩
  obtain ⟨row, hrow, hvalues⟩ := map_eq_some_iff.mp hrow
  simp only [Prod.mk.injEq] at hvalues
  have hsucceeded := happlied.donations (by decide) d1 row hrow hvalues.1
  rw [hvalues.2] at hsucceeded
  cases hsucceeded

end MatrixMedia.Monetization
