import MatrixMedia.Rating.Charges

/-!
# Runs of rating passes

Any number of passes over one database, with new usage, wallets, deposits and prices in
between, statements that fail with or without effect, and passes that stop anywhere. As
long as other movements keep out of the charges' key space, every usage event is charged
at most once, a rating names its own charge and the balances agree with the ledger
(`usage_settled_once`). The version a rating records is the one that was charged in every
run whose prices change only between passes and while no charge waits for its mark
(`recorded_price_is_charged`): a mark that fails, followed by a price change, breaks it.
-/

namespace MatrixMedia.Rating
open Lib Lib.Chrono Lib.Interaction

abbrev BillingEvent : Type := Event PassArgs Fate Move

/-- Deposits and the like have idempotency keys of their own. -/
def KeysApart : BillingEvent → Prop
  | .move mv => Apart mv
  | _ => True

instance (e : BillingEvent) : Decidable (KeysApart e) := by
  unfold KeysApart
  split <;> infer_instance

/-- A price is added only while no pass is in flight and every event that was charged is rated. -/
def PricesSettle (billing : Billing) : BillingEvent → Prop
  | .move (.price _) => billing.running = [] ∧ ∀ u ∈ billing.state.usage.rows, u.rating = none →
      ∀ t ∈ billing.state.transactions.rows, t.key ≠ chargeIdempotencyKey u.key
  | _ => True

instance (billing : Billing) (e : BillingEvent) : Decidable (PricesSettle billing e) := by
  unfold PricesSettle
  split <;> infer_instance

theorem empty_kept (samePrice : Prop) : Books.empty.Kept samePrice where
  balance := fun _ _ h => by simp [Books.empty] at h
  owner := fun _ h => absurd h List.not_mem_nil
  transactionId_lt := fun _ h => absurd h List.not_mem_nil
  transactionId_inj := fun _ h => absurd h List.not_mem_nil
  usageId_lt := fun _ h => absurd h List.not_mem_nil
  usageId_inj := fun _ h => absurd h List.not_mem_nil
  charges := fun _ h => absurd h List.not_mem_nil
  apart := fun _ h => absurd h List.not_mem_nil
  rated := fun _ h => absurd h List.not_mem_nil
  priced := fun _ _ h => absurd h List.not_mem_nil
  atPrice := fun _ _ h => absurd h List.not_mem_nil

/-- The books are kept in every run. A price that is added is no move that passes could have
beside them; there is none then. -/
theorem kept_of_run {samePrice h} {billing : Billing}
    (run : Run billingStep (fun _ billing e => KeysApart e ∧ (samePrice → PricesSettle billing e)) newBilling h billing) :
    billing.state.Kept samePrice := by
  have hsound : billing.Sound (bookkeeping samePrice) fun _ => Returns fun _ _ => True := by
    apply run.invariant (I := fun _ pool => pool.Sound (bookkeeping samePrice) fun _ => Returns fun _ _ => True)
    · exact ⟨empty_kept samePrice, fun _ _ hmem => absurd hmem List.not_mem_nil, fun _ _ hmem => absurd hmem List.not_mem_nil⟩
    · rintro _ pool e _ ⟨hapart, hprice⟩ hsound
      have hstep (hok : PoolOk (bookkeeping samePrice) (fun _ _ => True) pool e) :=
        hsound.step (fun k _ _ _ => ratePending_safe k.batch k.now) hok
      cases e with
      | start k => exact hstep trivial
      | request place fate => exact hstep fun _ _ => trivial
      | die => exact hstep trivial
      | move mv =>
        by_cases hprices : samePrice ∧ ∃ p, mv = .price p
        · obtain ⟨hsp, p, rfl⟩ := hprices
          obtain ⟨hidle, hmarked⟩ := hprice hsp
          refine ⟨(hsound.inv.addPrice p fun _ => hmarked).1, fun k prog hmem => ?_, fun _ _ _ _ _ _ _ _ => trivial⟩
          have hmem : (k, prog) ∈ pool.running := hmem
          rw [hidle] at hmem
          cases hmem
        · exact hstep ⟨hapart, fun hsp p heq => hprices ⟨hsp, p, heq⟩⟩
  exact hsound.inv

/-! ## Settled once -/

/-- What the tables say about every usage event and every wallet. -/
structure Books.Settled (b : Books) : Prop where
  /-- No event is charged twice. -/
  once : ∀ u ∈ b.usage.rows, ∀ t ∈ b.transactions.rows, ∀ t' ∈ b.transactions.rows,
    t.ChargeOf u.event → t'.ChargeOf u.event → t = t'
  /-- Every charge is for one of the events. -/
  charges : ∀ t ∈ b.transactions.rows, t.movement.kind = .charge → ∃ u ∈ b.usage.rows, t.ChargeOf u.event
  /-- An event rated with a transaction has exactly that charge. -/
  rated : ∀ u ∈ b.usage.rows, ∀ r ∈ u.rating, ∀ id ∈ r.transactionId, ∃ t ∈ b.transactions.rows,
    t.ChargeOf u.event ∧ t.id = id ∧ ∀ t' ∈ b.transactions.rows, t'.id = id → t' = t
  balance : ∀ (userId : String) (w : WalletRow), b.wallets[userId]? = some w →
    w.balanceMinor = b.ledgerSum userId ∧ -w.creditLimitMinor ≤ w.balanceMinor

theorem Books.Kept.settled {samePrice} {b : Books} (h : b.Kept samePrice) : b.Settled where
  once := fun _ _ t ht t' ht' hof hof' => b.transactions.eq_of_key_eq ht ht' (hof.2.1.trans hof'.2.1.symm)
  charges := h.charges
  rated := by
    intro u hu r hr id hid
    obtain ⟨t, ht, htid, hkey⟩ := h.rated u hu r hr id hid
    exact ⟨t, ht, h.chargeOf_key hu ht hkey, htid, fun t' ht' htid' => h.transactionId_inj t' ht' t ht (htid'.trans htid.symm)⟩
  balance := h.balance

/-- **Settled once.** In every run whose other movements keep out of the charges' keys:
the tables are settled; an attempt that finds no price or is refused for want of funds
asks for nothing but the wallet's place in the queue, which changes neither the ledger nor
the usage nor a balance; and a charge is refused only if the event has none. -/
theorem usage_settled_once {h : List BillingEvent} {billing : Billing}
    (run : Run billingStep (fun _ _ e => KeysApart e) newBilling h billing) :
    billing.state.Settled ∧
    (∀ now ev card st es a, (rateWith now ev card st).Path es a →
      priceIn card ev.event.unit = none ∨ (∃ x ∈ es, Refused x) → ∀ x ∈ es, Harmless x) ∧
    (∀ q fate, Harmless ⟨q, (billing.state.request q fate).2⟩ → billing.state.SameMoney (billing.state.request q fate).1) ∧
    ∀ m fate, Refused ⟨.insertTransaction m, (billing.state.request (.insertTransaction m) fate).2⟩ →
      ∀ t ∈ billing.state.transactions.rows, t.key ≠ m.idempotencyKey := by
  have hkept : billing.state.Kept False := kept_of_run (run.mono fun _ _ _ hapart => ⟨hapart, False.elim⟩)
  refine ⟨hkept.settled, ?_, harmless_sameMoney _, fun m fate => refused_free⟩
  intro now ev card st es a path hunpaid
  exact unpaid_attempt path hunpaid

/-- The pass at the head of the pool is served, once for each of these fates. -/
def served (fates : List Fate) : List BillingEvent := fates.map (.request 0)

def answers (n : Nat) : List BillingEvent := served (List.replicate n .answered)

/-- A wallet with 100 minor units, a price of 9 per GB and one GB of usage. -/
def oneGb : List BillingEvent :=
  [.move (.wallet "@i:hs" "eur" 0), .move (deposit "@i:hs" "eur" 100 "top-up"), .move (.price ⟨1, "eur", .egressGb, 9⟩),
    .move (.usage "@i:hs" "b1" .egressGb 1000 "u1" 0)]

/-- A pass that charges the event and cannot mark it. -/
def markFails : List BillingEvent := [.start ⟨100, 10⟩] ++ answers 5 ++ served [.failed "timeout"]

/-- A pass that finds the charge and marks the event. -/
def recovers : List BillingEvent := [.start ⟨100, 20⟩] ++ answers 7

def billed (events : List BillingEvent) : Billing := events.foldl billingStep newBilling

/-- The event and its rating, as version and transaction. -/
def ratings (b : Books) : List (String × Option (Int × Option Int)) :=
  b.usage.rows.map fun u => (u.key, u.rating.map fun r => (r.version, r.transactionId))

/-- The ledger, as key, kind and amount. -/
def ledger (b : Books) : List (Int × String × TransactionKind × Int) :=
  b.transactions.rows.map fun t => (t.id, t.key, t.movement.kind, t.movement.amountMinor)

theorem billed_run {ok} {events : List BillingEvent}
    (h : Follows billingStep ok [] newBilling events) :
    Run billingStep ok newBilling (events.reverse ++ []) (billed events) :=
  Run.start.follow h

/-- A failed mark, recovered by the next pass: charged once and rated with that charge. -/
theorem usage_settled_once_recovered :
    ledger (billed (oneGb ++ markFails ++ recovers)).state = [(1, "top-up", .deposit, 100), (2, "rate:u1", .charge, -9)] ∧
    ratings (billed (oneGb ++ markFails ++ recovers)).state = [("u1", some (1, some 2))] ∧
    (billed (oneGb ++ markFails ++ recovers)).state.Settled := by
  refine ⟨by decide +kernel, by decide +kernel, ?_⟩
  exact (usage_settled_once (billed_run (by decide +kernel))).1

/-- A deposit under the key that the event's charge will have. -/
def depositFirst : List BillingEvent := oneGb ++ [.move (deposit "@i:hs" "eur" 5 "rate:u1")] ++ recovers

/-- After the failed mark a new card comes without the event's unit, and a pass meets it. -/
def unitDropped : List BillingEvent :=
  oneGb ++ markFails ++ [.move (.price ⟨2, "eur", .gpuMinute, 1⟩), .start ⟨100, 20⟩] ++ answers 4

/-- A deposit under the event's charge key is taken for its charge: the event leaves the
queue rated with the deposit's row and nobody paid. And an event that was charged by a
pass that could not mark it has moved money although a later pass cannot price it. -/
theorem deposit_taken_for_charge :
    (∃ h, Run billingStep (fun _ _ _ => True) newBilling h (billed depositFirst)) ∧
    ratings (billed depositFirst).state = [("u1", some (1, some 2))] ∧
    ledger (billed depositFirst).state = [(1, "top-up", .deposit, 100), (2, "rate:u1", .deposit, 5)] ∧
    (∃ u ∈ (billed depositFirst).state.usage.rows, ∃ r ∈ u.rating, r.transactionId = some 2 ∧
      ∀ t ∈ (billed depositFirst).state.transactions.rows, ¬ t.ChargeOf u.event) ∧
    (∃ h, Run billingStep (fun _ _ e => KeysApart e) newBilling h (billed unitDropped)) ∧
    (billed unitDropped).running.length = 0 ∧ ratings (billed unitDropped).state = [("u1", none)] ∧
    ledger (billed unitDropped).state = [(1, "top-up", .deposit, 100), (2, "rate:u1", .charge, -9)] := by
  refine ⟨⟨_, billed_run (by decide +kernel)⟩, by decide +kernel, by decide +kernel, ?_, ⟨_, billed_run (by decide +kernel)⟩,
    by decide +kernel, by decide +kernel, by decide +kernel⟩
  exact ⟨⟨⟨1, "@i:hs", "b1", .egressGb, 1000, "u1", 0⟩, some ⟨20, 1, some 2⟩⟩, by decide +kernel, _, rfl, rfl, by decide +kernel⟩

/-! ## The recorded price -/

/-- **The recorded price is the price that was charged**, in every run in which prices are added
only while no pass is in flight and no charge waits for its mark. -/
theorem recorded_price_is_charged {h : List BillingEvent} {billing : Billing}
    (run : Run billingStep (fun _ billing e => KeysApart e ∧ PricesSettle billing e) newBilling h billing) :
    ∀ u ∈ billing.state.usage.rows, ∀ r ∈ u.rating, billing.state.PricedAs u.event r := by
  have hkept : billing.state.Kept True := kept_of_run (run.mono fun _ _ _ hok => ⟨hok.1, fun _ => hok.2⟩)
  exact hkept.priced trivial

/-- After the recovery the price is doubled, and another GB is rated. -/
def dearerLater : List BillingEvent :=
  oneGb ++ markFails ++ recovers ++ [.move (.price ⟨2, "eur", .egressGb, 18⟩), .move (.usage "@i:hs" "b1" .egressGb 1000 "u2" 30),
    .start ⟨100, 40⟩] ++ answers 7

/-- Each of the two is recorded at the price it was charged at. -/
theorem recorded_price_is_charged_recovered :
    ratings (billed dearerLater).state = [("u1", some (1, some 2)), ("u2", some (2, some 3))] ∧
    ∀ u ∈ (billed dearerLater).state.usage.rows, ∀ r ∈ u.rating, (billed dearerLater).state.PricedAs u.event r :=
  ⟨by decide +kernel, recorded_price_is_charged (billed_run (by decide +kernel))⟩

/-- The price changes between the charge and its recovery. -/
def repriced (priceMinor : Int) (statements : Nat) : List BillingEvent :=
  oneGb ++ markFails ++ [.move (.price ⟨2, "eur", .egressGb, priceMinor⟩), .start ⟨100, 20⟩] ++ answers statements

/-- The event was charged 9 at version 1 and is recorded as rated at version 2, whose price
makes it 18; and with a free version 2 it is recorded as free although it was charged. -/
theorem recovery_records_new_price :
    (∃ h, Run billingStep (fun _ _ e => KeysApart e) newBilling h (billed (repriced 18 7))) ∧
    ratings (billed (repriced 18 7)).state = [("u1", some (2, some 2))] ∧
    ledger (billed (repriced 18 7)).state = [(1, "top-up", .deposit, 100), (2, "rate:u1", .charge, -9)] ∧
    (∃ u ∈ (billed (repriced 18 7)).state.usage.rows, ∃ r ∈ u.rating, ¬ (billed (repriced 18 7)).state.PricedAs u.event r) ∧
    (∃ h, Run billingStep (fun _ _ e => KeysApart e) newBilling h (billed (repriced 0 4))) ∧
    ratings (billed (repriced 0 4)).state = [("u1", some (2, none))] ∧
    ledger (billed (repriced 0 4)).state = [(1, "top-up", .deposit, 100), (2, "rate:u1", .charge, -9)] := by
  refine ⟨⟨_, billed_run (by decide +kernel)⟩, by decide +kernel, by decide +kernel, ?_,
    ⟨_, billed_run (by decide +kernel)⟩, by decide +kernel, by decide +kernel⟩
  have hcard : (billed (repriced 18 7)).state.rateCard.rows = [⟨1, "eur", .egressGb, 9⟩, ⟨2, "eur", .egressGb, 18⟩] := by
    decide +kernel
  have hamount : ∀ t ∈ (billed (repriced 18 7)).state.transactions.rows, t.id = 2 → t.movement.amountMinor = -9 := by
    decide +kernel
  refine ⟨⟨⟨1, "@i:hs", "b1", .egressGb, 1000, "u1", 0⟩, some ⟨20, 2, some 2⟩⟩, by decide +kernel, _, rfl, ?_⟩
  rintro ⟨t, ht, hid, price, hprice, hcharge⟩
  rw [hamount t ht hid] at hcharge
  rw [hcard] at hprice
  obtain ⟨-, rfl⟩ : t.movement.currency = "eur" ∧ price = 18 := by simpa using hprice
  exact absurd hcharge (by decide)

end MatrixMedia.Rating
