import MatrixMedia.Lib.Interaction
import MatrixMedia.Metering.Model
import Mathlib.Data.List.Lex
import Mathlib.Data.List.Sort

/-!
# Usage rating: the tables and the statements

The tables of `V035__broadcaster_wallet.sql` (with the column of V038) and the statements
that `mm-db/src/wallet_db.rs` and `mm-db/src/metering_db.rs` run on them. The constraints
are part of `insertTransaction`: the sign, the unique idempotency key, the foreign key to
the wallet, and last the trigger with the CHECK on the balance it writes. A usage row is
rated as a whole or not at all (`usage_rating_is_all_or_nothing`), so its rating is one
optional value.
-/

namespace MatrixMedia.Rating
open Lib Lib.Chrono Lib.Interaction MatrixMedia.Metering

/-! ## Money -/

def i64Min : Int := -2 ^ 63
def i64Max : Int := 2 ^ 63 - 1

def saturate (n : Int) : Int := max i64Min (min i64Max n)

/-- `charge_minor`: `quantity_milli` thousandths of a unit at `price_minor` per whole unit,
rounded half up. -/
def chargeMinor (quantityMilli priceMinor : Int) : Int :=
  if quantityMilli ≤ 0 ∨ priceMinor ≤ 0 then 0
  else
    let scaled := saturate (quantityMilli * priceMinor)
    (saturate (scaled + 500)).tdiv 1000

theorem chargeMinor_nonneg (quantityMilli priceMinor : Int) : 0 ≤ chargeMinor quantityMilli priceMinor := by
  unfold chargeMinor
  split
  · exact le_refl 0
  · rename_i h
    rw [not_or, not_le, not_le] at h
    have hscaled : 0 ≤ saturate (quantityMilli * priceMinor) := by
      have := Int.mul_pos h.1 h.2
      simp only [saturate, i64Max, le_max_iff, le_min_iff]
      omega
    apply Int.tdiv_nonneg
    · simp only [saturate, i64Max, le_max_iff, le_min_iff] at hscaled ⊢
      omega
    · omega

/-- `charge_idempotency_key`. -/
def chargeIdempotencyKey (usageKey : String) : String := "rate:" ++ usageKey

theorem chargeIdempotencyKey_inj {k k' : String} (h : chargeIdempotencyKey k = chargeIdempotencyKey k') : k = k' :=
  String.append_right_inj _ |>.mp h

/-! ## Tables -/

/-- The units of the rate card's and the usage table's CHECK. -/
inductive BillableUnit where
  | egressGb
  | gpuMinute
  | nodeMinute
  | storageGbMonth
deriving DecidableEq

def BillableUnit.text : BillableUnit → String
  | .egressGb => "egress_gb"
  | .gpuMinute => "gpu_minute"
  | .nodeMinute => "node_minute"
  | .storageGbMonth => "storage_gb_month"

/-- A row of `mm_broadcaster_wallet`, by `user_id`. -/
structure WalletRow where
  currency : String
  balanceMinor : Int
  creditLimitMinor : Int
  ratingBlockedAt : Option DateTime
deriving DecidableEq

inductive TransactionKind where
  | deposit
  | charge
  | refund
  | adjustment
deriving DecidableEq

/-- The columns a statement gives for `mm_wallet_transactions`. -/
structure Movement where
  userId : String
  currency : String
  kind : TransactionKind
  amountMinor : Int
  idempotencyKey : String
  broadcastId : Option String
deriving DecidableEq

/-- A row of `mm_wallet_transactions`. -/
structure Transaction where
  id : Int
  movement : Movement
deriving DecidableEq

/-- The column under `wallet_tx_idempotency_unique`. -/
def Transaction.key (t : Transaction) : String := t.movement.idempotencyKey

/-- A row of `mm_rate_card`. -/
structure PriceRow where
  version : Int
  currency : String
  unit : BillableUnit
  priceMinor : Int
deriving DecidableEq

/-- The primary key of `mm_rate_card`. -/
def PriceRow.key (p : PriceRow) : Int × String × BillableUnit := (p.version, p.currency, p.unit)

/-- The columns of `mm_usage_events` that are written once. -/
structure UsageEvent where
  id : Int
  userId : String
  broadcastId : String
  unit : BillableUnit
  quantityMilli : Int
  idempotencyKey : String
  occurredAt : DateTime
deriving DecidableEq

/-- The columns that rating sets together. -/
structure RatedAs where
  ratedAt : DateTime
  version : Int
  transactionId : Option Int
deriving DecidableEq

/-- A row of `mm_usage_events`. -/
structure UsageRow where
  event : UsageEvent
  rating : Option RatedAs
deriving DecidableEq

/-- The column under `usage_idempotency_unique`. -/
def UsageRow.key (u : UsageRow) : String := u.event.idempotencyKey

/-- The tables, and the next values of the two identity columns. -/
structure Books where
  wallets : Std.TreeMap String WalletRow
  transactions : Ledger Transaction.key
  nextTransaction : Int
  rateCard : Ledger PriceRow.key
  usage : Ledger UsageRow.key
  nextUsage : Int

def Books.empty : Books := ⟨∅, Ledger.empty, 1, Ledger.empty, Ledger.empty, 1⟩

/-! ## Moving money -/

/-- The constraints of V035 that an insert into the ledger can violate. -/
inductive WalletConstraint where
  | txSignMatchesKind
  | txIdempotencyUnique
  | txCurrencyMatchesWallet
  | withinCreditLimit
deriving DecidableEq

/-- An `sqlx::Error`: the constraint it names, if any, and its text. -/
structure SqlxError where
  constraint : Option WalletConstraint
  message : String
deriving DecidableEq

/-- An error the database answered with. -/
def databaseError (constraint : Option WalletConstraint) (text : String) : SqlxError :=
  ⟨constraint, "error returned from database: " ++ text⟩

def WalletConstraint.name : WalletConstraint → String
  | .txSignMatchesKind => "wallet_tx_sign_matches_kind"
  | .txIdempotencyUnique => "wallet_tx_idempotency_unique"
  | .txCurrencyMatchesWallet => "wallet_tx_currency_matches_wallet"
  | .withinCreditLimit => "wallet_within_credit_limit"

def violated (c : WalletConstraint) : SqlxError :=
  databaseError (some c) ("violates constraint \"" ++ c.name ++ "\"")

/-- An error of the connection: no answer came back. -/
def connectionError (text : String) : SqlxError := ⟨none, "error communicating with database: " ++ text⟩

/-- `wallet_tx_sign_matches_kind`. -/
def Movement.signMatchesKind (m : Movement) : Bool :=
  match m.kind with
  | .deposit | .refund => 0 < m.amountMinor
  | .charge => m.amountMinor < 0
  | .adjustment => m.amountMinor ≠ 0

section
variable (b : Books)

/-- The row is added and `mm_wallet_apply_transaction` moves the balance. -/
def Books.apply (m : Movement) (w : WalletRow) : Books :=
  { b with
    transactions := b.transactions.post ⟨b.nextTransaction, m⟩
    nextTransaction := b.nextTransaction + 1
    wallets := b.wallets.insert m.userId { w with balanceMinor := w.balanceMinor + m.amountMinor } }

/-- `INSERT INTO mm_wallet_transactions`. -/
def Books.insertTransaction (m : Movement) : Books × Except SqlxError Unit :=
  if m.signMatchesKind = false then
    (b, .error (violated .txSignMatchesKind))
  else if m.idempotencyKey ∈ b.transactions.rows.map Transaction.key then
    (b, .error (violated .txIdempotencyUnique))
  else
    match b.wallets[m.userId]? with
    | none =>
      (b, .error (violated .txCurrencyMatchesWallet))
    | some w =>
      if w.currency ≠ m.currency then
        (b, .error (violated .txCurrencyMatchesWallet))
      else if w.balanceMinor + m.amountMinor < i64Min ∨ i64Max < w.balanceMinor + m.amountMinor then
        (b, .error (databaseError none "bigint out of range"))
      else if w.balanceMinor + m.amountMinor < -w.creditLimitMinor then
        (b, .error (violated .withinCreditLimit))
      else (b.apply m w, .ok ())

/-- `SELECT id FROM mm_wallet_transactions WHERE idempotency_key = $1`. -/
def Books.transactionIdForKey (idempotencyKey : String) : Option Int :=
  (b.transactions.rows.find? fun t => t.key = idempotencyKey).map Transaction.id

/-- `wallet_currency_is_iso4217_lower`: three letters from a to z. -/
def currencyIsIso4217Lower (currency : String) : Bool :=
  currency.toList.length = 3 ∧ currency.toList.all Char.isLower

/-- `INSERT INTO mm_broadcaster_wallet … ON CONFLICT (user_id) DO NOTHING`. -/
def Books.createWallet (userId currency : String) (creditLimitMinor : Int) : Books :=
  if creditLimitMinor < 0 ∨ currencyIsIso4217Lower currency = false then b
  else if (b.wallets[userId]?).isSome then b
  else { b with wallets := b.wallets.insert userId ⟨currency, 0, creditLimitMinor, none⟩ }

/-! ## The rate card -/

/-- The newest version for a currency and its prices. -/
structure RateCard where
  version : Int
  prices : List (BillableUnit × Int)
deriving DecidableEq

def RateCard.price? (card : RateCard) (unit : BillableUnit) : Option Int :=
  (card.prices.find? fun p => p.1 = unit).map Prod.snd

/-- `PgMeteringDb::current_prices`. -/
def Books.currentPrices (currency : String) : Option RateCard :=
  let rows := b.rateCard.rows.filter fun p => p.currency = currency
  let newest := (rows.map PriceRow.version).max?
  match rows.filter fun p => some p.version = newest with
  | [] => none
  | p :: rest => some ⟨p.version, (p :: rest).map fun p => (p.unit, p.priceMinor)⟩

/-- A row is added to the rate card, under its primary key and `price_minor >= 0`. -/
def Books.addPrice (p : PriceRow) : Books :=
  if p.priceMinor < 0 then b else { b with rateCard := b.rateCard.post p }

/-! ## The usage queue -/

/-- A row of the rating queue: the usage and the currency of its wallet. -/
structure PendingUsage where
  event : UsageEvent
  currency : String
deriving DecidableEq

/-- `rating_blocked_at NULLS FIRST, occurred_at, id`. -/
def rankOf (blockedAt : Option DateTime) (e : UsageEvent) : List Int :=
  match blockedAt with
  | none => [0, 0, e.occurredAt, e.id]
  | some t => [1, t, e.occurredAt, e.id]

/-- The unrated events whose user has a wallet, each with its wallet. -/
def Books.unratedWithWallet : List (UsageEvent × WalletRow) :=
  (b.usage.rows.filter fun u => u.rating = none).filterMap fun u =>
    (b.wallets[u.event.userId]?).map fun w => (u.event, w)

/-- `PgMeteringDb::unrated_events`. -/
def Books.unratedEvents (limit : Int) : Except SqlxError (List PendingUsage) :=
  if limit < 0 then .error (databaseError none "LIMIT must not be negative")
  else
    let ordered := b.unratedWithWallet.insertionSort
      fun x y => rankOf x.2.ratingBlockedAt x.1 ≤ rankOf y.2.ratingBlockedAt y.1
    .ok ((ordered.take limit.toNat).map fun x => ⟨x.1, x.2.currency⟩)

/-- `PgMeteringDb::unrated_without_wallet`. -/
def Books.unratedWithoutWallet : List String :=
  ((b.usage.rows.filter fun u => u.rating = none ∧ b.wallets[u.event.userId]? = none).map fun u => u.event.userId).dedup

end

/-- Rate the event if it has this id and is not rated yet. -/
def UsageRow.rate (eventId : Int) (r : RatedAs) (u : UsageRow) : UsageRow :=
  if u.event.id = eventId ∧ u.rating = none then { u with rating := some r } else u

@[simp] theorem UsageRow.event_rate (eventId : Int) (r : RatedAs) (u : UsageRow) : (u.rate eventId r).event = u.event := by
  unfold rate
  split <;> rfl

theorem UsageRow.key_rate (eventId : Int) (r : RatedAs) (u : UsageRow) : (u.rate eventId r).key = u.key :=
  congrArg UsageEvent.idempotencyKey (u.event_rate eventId r)

/-- `UPDATE mm_usage_events SET … WHERE id = $1 AND rated_at IS NULL`. -/
def Books.rate (b : Books) (eventId : Int) (r : RatedAs) : Books :=
  { b with usage := b.usage.modify (UsageRow.rate eventId r) (UsageRow.key_rate eventId r) }

/-- Set or clear `rating_blocked_at`. -/
def Books.setBlocked (b : Books) (userId : String) (blockedAt : Option DateTime) : Books :=
  match b.wallets[userId]? with
  | none => b
  | some w => { b with wallets := b.wallets.insert userId { w with ratingBlockedAt := blockedAt } }

/-- Usage is recorded: `INSERT … ON CONFLICT (idempotency_key) DO NOTHING`. -/
def Books.recordUsage (b : Books) (userId broadcastId : String) (unit : BillableUnit) (quantityMilli : Int)
    (idempotencyKey : String) (occurredAt : DateTime) : Books :=
  if quantityMilli < 0 then b
  else
    { b with
      usage := b.usage.post
        ⟨⟨b.nextUsage, userId, broadcastId, unit, quantityMilli, idempotencyKey, occurredAt⟩, none⟩
      nextUsage := b.nextUsage + 1 }

/-! ## Statements as requests -/

/-- The statements a rating pass runs. -/
inductive Statement where
  | unratedWithoutWallet
  | unratedEvents (limit : Int)
  | currentPrices (currency : String)
  | insertTransaction (m : Movement)
  | wallet (userId : String)
  | transactionIdForKey (idempotencyKey : String)
  | markRated (eventId version transactionId : Int) (ratedAt : DateTime)
  | markRatedWithoutCharge (eventId version : Int) (ratedAt : DateTime)
  | blockRating (userId : String) (now : DateTime)
  | unblockRating (userId : String)
deriving DecidableEq

def Statement.Rows : Statement → Type
  | .unratedWithoutWallet => List String
  | .unratedEvents _ => List PendingUsage
  | .currentPrices _ => Option RateCard
  | .insertTransaction _ => Unit
  | .wallet _ => Option WalletRow
  | .transactionIdForKey _ => Option Int
  | .markRated .. => Unit
  | .markRatedWithoutCharge .. => Unit
  | .blockRating .. => Unit
  | .unblockRating _ => Unit

abbrev Statement.Reply (q : Statement) : Type := Except SqlxError q.Rows

def Books.execute (b : Books) : (q : Statement) → Books × q.Reply
  | .unratedWithoutWallet => (b, .ok b.unratedWithoutWallet)
  | .unratedEvents limit => (b, b.unratedEvents limit)
  | .currentPrices currency => (b, .ok (b.currentPrices currency))
  | .insertTransaction m => b.insertTransaction m
  | .wallet userId => (b, .ok b.wallets[userId]?)
  | .transactionIdForKey key => (b, .ok (b.transactionIdForKey key))
  | .markRated eventId version transactionId ratedAt =>
    (b.rate eventId ⟨ratedAt, version, some transactionId⟩, .ok ())
  | .markRatedWithoutCharge eventId version ratedAt => (b.rate eventId ⟨ratedAt, version, none⟩, .ok ())
  | .blockRating userId now => (b.setBlocked userId (some now), .ok ())
  | .unblockRating userId => (b.setBlocked userId none, .ok ())

/-- What becomes of a statement: it runs, it fails without an effect, or its answer is
lost after it took effect. -/
inductive Fate where
  | answered
  | failed (message : String)
  | unacknowledged (message : String)
deriving DecidableEq

def Books.request (b : Books) (q : Statement) : Fate → Books × q.Reply
  | .answered => b.execute q
  | .failed message => (b, .error (connectionError message))
  | .unacknowledged message => ((b.execute q).1, .error (connectionError message))

/-- What others do to the tables. -/
inductive Move where
  | usage (userId broadcastId : String) (unit : BillableUnit) (quantityMilli : Int) (idempotencyKey : String)
      (occurredAt : DateTime)
  | wallet (userId currency : String) (creditLimitMinor : Int)
  /-- A deposit, a refund or an adjustment. -/
  | movement (m : Movement)
  | price (p : PriceRow)

def Books.move (b : Books) : Move → Books
  | .usage userId broadcastId unit quantityMilli idempotencyKey occurredAt =>
    b.recordUsage userId broadcastId unit quantityMilli idempotencyKey occurredAt
  | .wallet userId currency creditLimitMinor => b.createWallet userId currency creditLimitMinor
  | .movement m => (b.insertTransaction m).1
  | .price p => b.addPrice p

/-- `PgWalletDb::deposit`. -/
def deposit (userId currency : String) (amountMinor : Int) (idempotencyKey : String) : Move :=
  .movement ⟨userId, currency, .deposit, amountMinor, idempotencyKey, none⟩

def database : Service Books Fate Move Statement Statement.Reply := ⟨Books.request, Books.move⟩

end MatrixMedia.Rating
