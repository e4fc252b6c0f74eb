import MatrixMedia.Rating.Model

/-!
# One rating pass

`rate_pending` of `mm-fleet/src/rating.rs` with `PgWalletDb::charge` of
`mm-db/src/wallet_db.rs`, as a program over the database's statements: a pass may be
stopped at any of them, and other passes run in between. The charge comes first and the
mark second, in separate statements. `rateEvent` is the body of the loop; what it does once
it has a card is `rateWith`, and from the charge on `chargeEvent`.
-/

namespace MatrixMedia.Rating
open Lib Lib.Chrono Lib.Interaction MatrixMedia.Metering

abbrev Pass (α : Type) : Type := Prog Statement Statement.Reply α

/-- The text of an error of `PgMeteringDb`. -/
def meterError (e : SqlxError) : String := (MeteringDbError.db e.message).text

/-! ## The wallet -/

inductive WalletError where
  | insufficientFunds (userId : String) (requestedMinor : Int)
  | noWallet (userId : String)
  | currencyMismatch (userId wallet attempted : String)
  | db (message : String)
deriving DecidableEq

def WalletError.text : WalletError → String
  | .insufficientFunds userId requestedMinor =>
    "insufficient funds: charging " ++ toString requestedMinor ++ " would breach the credit limit for " ++ userId
  | .noWallet userId => "no wallet for " ++ userId
  | .currencyMismatch userId wallet attempted =>
    "currency mismatch: " ++ attempted ++ " charged against a " ++ wallet ++ " wallet for " ++ userId
  | .db message => "database error: " ++ message

inductive ChargeOutcome where
  | applied
  | alreadyApplied
deriving DecidableEq

/-- `PgWalletDb::classify`. -/
def classify (e : SqlxError) (userId currency : String) (amount : Int) : Pass WalletError :=
  match e.constraint with
  | some .txIdempotencyUnique => .ret (.db "__replay__")
  | some .withinCreditLimit => .ret (.insufficientFunds userId amount)
  | some .txCurrencyMatchesWallet =>
    .call (.wallet userId) fun reply =>
      let held := match reply with
        | .ok (some w) => w.currency
        | _ => "<no wallet>"
      .ret (if held = "<no wallet>" then .noWallet userId else .currencyMismatch userId held currency)
  | _ => .ret (.db e.message)

/-- `PgWalletDb::movement`. -/
def movement (m : Movement) : Pass (Except WalletError ChargeOutcome) :=
  .call (.insertTransaction m) fun
    | .ok () => .ret (.ok .applied)
    | .error e => (classify e m.userId m.currency m.amountMinor).bind fun err => .ret (.error err)

/-- The row a charge writes: the sign is applied here. -/
def chargeMovement (userId currency : String) (amountMinor : Int) (idempotencyKey : String) (broadcastId : Option String) :
    Movement :=
  ⟨userId, currency, .charge, -amountMinor, idempotencyKey, broadcastId⟩

/-- `PgWalletDb::charge`. -/
def charge (userId currency : String) (amountMinor : Int) (idempotencyKey : String) (broadcastId : Option String) :
    Pass (Except WalletError ChargeOutcome) :=
  if amountMinor ≤ 0 then
    .ret (.error (.db ("charge amount must be positive, got " ++ toString amountMinor)))
  else movement (chargeMovement userId currency amountMinor idempotencyKey broadcastId)

/-- `treat_replay_as_success`. -/
def treatReplayAsSuccess : Except WalletError ChargeOutcome → Except WalletError ChargeOutcome
  | .error (.db message) => if message = "__replay__" then .ok .alreadyApplied else .error (.db message)
  | other => other

/-! ## The pass -/

/-- What one rating pass did. -/
structure RatingReport where
  rated : Nat := 0
  chargedMinor : Int := 0
  recovered : Nat := 0
  insufficientFunds : List String := []
  unpriceable : List (String × String) := []
  withoutWallet : List String := []
  deferred : Nat := 0
deriving DecidableEq

/-- The locals of the loop: the report, the cards read so far (one read per currency),
the wallets that could not cover a charge and the wallets unblocked in this pass. -/
structure PassState where
  report : RatingReport
  cards : Std.TreeMap String (Option RateCard) := ∅
  stalled : List String := []
  unblocked : List String := []

def PassState.unpriceable (st : PassState) (key reason : String) : PassState :=
  { st with report := { st.report with unpriceable := st.report.unpriceable ++ [(key, reason)] } }

def PassState.rated (st : PassState) : PassState :=
  { st with report := { st.report with rated := st.report.rated + 1 } }

/-- `block`. -/
def block (userId : String) (now : DateTime) (st : PassState) : Pass PassState :=
  .call (.blockRating userId now) fun
    | .ok () => .ret st
    | .error e => .ret (st.unpriceable userId ("blocking the wallet failed: " ++ meterError e))

/-- The card of a currency: the one this pass has read, or a read. -/
def loadCard (currency : String) (st : PassState) : Pass (Except String (Option RateCard × PassState)) :=
  match st.cards[currency]? with
  | some card => .ret (.ok (card, st))
  | none =>
    .call (.currentPrices currency) fun
      | .error e => .ret (.error ("reading the rate card failed: " ++ meterError e))
      | .ok loaded => .ret (.ok (loaded, { st with cards := st.cards.insert currency loaded }))

section
variable (now : DateTime)

section
variable (ev : PendingUsage)

/-- `mark_zero_rated`, and what the loop does with its outcome. -/
def markZeroRated (version : Int) (st : PassState) : Pass PassState :=
  .call (.markRatedWithoutCharge ev.event.id version now) fun
    | .ok () => .ret st.rated
    | .error e =>
      .ret (st.unpriceable ev.event.idempotencyKey ("marking a zero-priced event failed: " ++ meterError e))

def PassState.unblock (st : PassState) (userId : String) : PassState := { st with unblocked := userId :: st.unblocked }

/-- Bring a wallet back to the front of the queue, once per pass. -/
def unblock (ev : PendingUsage) (st : PassState) : Pass (Except String PassState) :=
  if ev.event.userId ∈ st.unblocked then .ret (.ok st)
  else
    .call (.unblockRating ev.event.userId) fun
      | .ok () => .ret (.ok (st.unblock ev.event.userId))
      | .error e =>
        .ret (.ok ((st.unblock ev.event.userId).unpriceable ev.event.idempotencyKey
          ("unblocking the wallet failed: " ++ meterError e)))

/-- The charge landed, now or in an earlier pass: find its row and mark the event. -/
def markCharged (version : Int) (st : PassState) : Pass (Except String PassState) :=
  .call (.transactionIdForKey (chargeIdempotencyKey ev.event.idempotencyKey)) fun
    | .error e => .ret (.error ("recovering the transaction id failed: " ++ meterError e))
    | .ok none =>
      .ret (.ok (st.unpriceable ev.event.idempotencyKey "charged but the ledger row could not be found"))
    | .ok (some transactionId) =>
      .call (.markRated ev.event.id version transactionId now) fun
        | .error e =>
          .ret (.ok (st.unpriceable ev.event.idempotencyKey
            ("charged but marking rated failed (will retry): " ++ meterError e)))
        | .ok () => unblock ev st.rated

/-- Charge an event, and mark it once the money has moved. -/
def chargeEvent (version amount : Int) (st : PassState) :
    Pass (Except String PassState) :=
  (charge ev.event.userId ev.currency amount (chargeIdempotencyKey ev.event.idempotencyKey)
      (some ev.event.broadcastId)).bind fun r =>
    match treatReplayAsSuccess r with
    | .ok .applied =>
      markCharged now ev version
        { st with report := { st.report with chargedMinor := st.report.chargedMinor + amount } }
    | .ok .alreadyApplied =>
      markCharged now ev version { st with report := { st.report with recovered := st.report.recovered + 1 } }
    | .error (.insufficientFunds _ _) =>
      -- left unrated: the wallet goes to the back of the queue and is not tried again in this pass
      (block ev.event.userId now { st with
          report := { st.report with insufficientFunds := st.report.insufficientFunds ++ [ev.event.broadcastId] } }).bind
        fun st => .ret (.ok { st with stalled := ev.event.userId :: st.stalled })
    | .error e => .ret (.ok (st.unpriceable ev.event.idempotencyKey e.text))

/-- The price the card in use has for a unit. -/
def priceIn (card : Option RateCard) (unit : BillableUnit) : Option Int := card.bind fun c => c.price? unit

/-- What the loop does with an event and the card of its currency. -/
def rateWith (card : Option RateCard) (st : PassState) :
    Pass (Except String PassState) :=
  match card with
  | none =>
    (block ev.event.userId now
      (st.unpriceable ev.event.idempotencyKey ("no rate card for currency " ++ ev.currency))).bind fun st => .ret (.ok st)
  | some card =>
    match card.price? ev.event.unit with
    | none =>
      (block ev.event.userId now (st.unpriceable ev.event.idempotencyKey
        ("rate card " ++ toString card.version ++ " has no price for unit " ++ ev.event.unit.text))).bind
        fun st => .ret (.ok st)
    | some price =>
      let amount := chargeMinor ev.event.quantityMilli price
      if amount = 0 then (markZeroRated now ev card.version st).bind fun st => .ret (.ok st)
      else chargeEvent now ev card.version amount st

/-- The body of the loop over the pending events. -/
def rateEvent (st : PassState) : Pass (Except String PassState) :=
  if ev.event.userId ∈ st.stalled then
    .ret (.ok { st with report := { st.report with deferred := st.report.deferred + 1 } })
  else (loadCard ev.currency st).andThen fun loaded => rateWith now ev loaded.1 loaded.2

end

end

def rateEvents (now : DateTime) : List PendingUsage → PassState → Pass (Except String RatingReport)
  | [], st => .ret (.ok st.report)
  | ev :: rest, st => (rateEvent now ev st).andThen (rateEvents now rest)

/-- `rate_pending`. -/
def ratePending (batch : Int) (now : DateTime) : Pass (Except String RatingReport) :=
  .call .unratedWithoutWallet fun
    | .error e => .ret (.error ("checking for wallet-less usage failed: " ++ meterError e))
    | .ok withoutWallet =>
      .call (.unratedEvents batch) fun
        | .error e => .ret (.error ("reading the rating queue failed: " ++ meterError e))
        | .ok pending => rateEvents now pending { report := { withoutWallet := withoutWallet } }

/-- The arguments of a pass. -/
structure PassArgs where
  batch : Int
  now : DateTime
deriving DecidableEq

def passes (k : PassArgs) : Pass (Except String RatingReport) := ratePending k.batch k.now

/-- The database, the passes in flight and the reports so far. -/
abbrev Billing : Type := Pool Books Statement Statement.Reply PassArgs (Except String RatingReport)

def newBilling : Billing := ⟨.empty, [], []⟩

def billingStep : Billing → Event PassArgs Fate Move → Billing := poolStep database passes

end MatrixMedia.Rating
