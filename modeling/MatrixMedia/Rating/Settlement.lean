import MatrixMedia.Rating.Pass
import MatrixMedia.Lib.Table

/-!
# What every statement keeps

`Books.Kept` is the invariant of the tables: balances are the sums of their ledgers and
within the credit limit, every charge belongs to a recorded event, and a rating that
names a transaction names one under the event's charge key. With `samePrice` it also says
that the recorded version is the one that was charged, and that what the ledger has for an
event that is not rated yet is what the current card asks for it. `Books.Steady` is what a
pass may rely on while others run: nothing recorded disappears and, with `samePrice`, no
price changes. There is one lemma per kind of write, and `bookkeeping` puts them together as
the discipline of the passes.
-/

namespace MatrixMedia.Rating
open Lib Lib.Chrono Lib.Interaction Books

/-- The ledger row is the charge for this usage. -/
def Transaction.ChargeOf (t : Transaction) (e : UsageEvent) : Prop :=
  t.movement.kind = .charge ∧ t.key = chargeIdempotencyKey e.idempotencyKey ∧ t.movement.userId = e.userId ∧
    t.movement.broadcastId = some e.broadcastId

instance (t : Transaction) (e : UsageEvent) : Decidable (t.ChargeOf e) := by
  unfold Transaction.ChargeOf
  infer_instance

/-- The sum of a wallet's ledger. -/
def Books.ledgerSum (b : Books) (userId : String) : Int :=
  b.transactions.total (fun t => t.movement.amountMinor) (fun t => t.movement.userId = userId)

/-- The rating records the price that was charged: the amount of its transaction is the
charge at its version's price, and without a transaction there is no charge. -/
def Books.PricedAs (b : Books) (e : UsageEvent) (r : RatedAs) : Prop :=
  match r.transactionId with
  | some id => ∃ t ∈ b.transactions.rows, t.id = id ∧
      ∃ price, ⟨r.version, t.movement.currency, e.unit, price⟩ ∈ b.rateCard.rows ∧
        -t.movement.amountMinor = chargeMinor e.quantityMilli price
  | none => ∀ t ∈ b.transactions.rows, t.movement.kind = .charge → t.key ≠ chargeIdempotencyKey e.idempotencyKey

/-- The current card has this price for the event. -/
def Books.Quotes (b : Books) (ev : PendingUsage) (price : Int) : Prop :=
  priceIn (b.currentPrices ev.currency) ev.event.unit = some price

/-- What is recorded for the event fits its current price: a charge is the one at that price,
and it is marked as free only if that charge is nothing. -/
structure Books.AtPrice (b : Books) (ev : PendingUsage) : Prop where
  charged : ∀ price, b.Quotes ev price → ∀ t ∈ b.transactions.rows, t.key = chargeIdempotencyKey ev.event.idempotencyKey →
    -t.movement.amountMinor = chargeMinor ev.event.quantityMilli price ∧ chargeMinor ev.event.quantityMilli price ≠ 0
  free : ∀ price, b.Quotes ev price → chargeMinor ev.event.quantityMilli price ≠ 0 →
    ∀ u ∈ b.usage.rows, u.key = ev.event.idempotencyKey → ∀ r ∈ u.rating, r.transactionId ≠ none

structure Books.Kept (samePrice : Prop) (b : Books) : Prop where
  balance : ∀ (userId : String) (w : WalletRow), b.wallets[userId]? = some w →
    w.balanceMinor = b.ledgerSum userId ∧ -w.creditLimitMinor ≤ w.balanceMinor
  owner : ∀ t ∈ b.transactions.rows, ∃ w, b.wallets[t.movement.userId]? = some w ∧ w.currency = t.movement.currency
  transactionId_lt : ∀ t ∈ b.transactions.rows, t.id < b.nextTransaction
  transactionId_inj : ∀ t ∈ b.transactions.rows, ∀ t' ∈ b.transactions.rows, t.id = t'.id → t = t'
  usageId_lt : ∀ u ∈ b.usage.rows, u.event.id < b.nextUsage
  usageId_inj : ∀ u ∈ b.usage.rows, ∀ u' ∈ b.usage.rows, u.event.id = u'.event.id → u.event = u'.event
  charges : ∀ t ∈ b.transactions.rows, t.movement.kind = .charge → ∃ u ∈ b.usage.rows, t.ChargeOf u.event
  apart : ∀ t ∈ b.transactions.rows, ∀ k, t.key = chargeIdempotencyKey k → t.movement.kind = .charge
  rated : ∀ u ∈ b.usage.rows, ∀ r ∈ u.rating, ∀ id ∈ r.transactionId,
    ∃ t ∈ b.transactions.rows, t.id = id ∧ t.key = chargeIdempotencyKey u.key
  priced : samePrice → ∀ u ∈ b.usage.rows, ∀ r ∈ u.rating, b.PricedAs u.event r
  atPrice : samePrice → ∀ u ∈ b.usage.rows, u.rating = none → ∀ w : WalletRow, b.wallets[u.event.userId]? = some w →
    b.AtPrice ⟨u.event, w.currency⟩

/-- Nothing that is recorded disappears, and a wallet keeps its currency. -/
structure Books.Grows (b b' : Books) : Prop where
  transactions : b.transactions.rows ⊆ b'.transactions.rows
  rateCard : b.rateCard.rows ⊆ b'.rateCard.rows
  usage : ∀ u ∈ b.usage.rows, ∃ u' ∈ b'.usage.rows, u'.event = u.event
  currency : ∀ (userId : String) (w : WalletRow), b.wallets[userId]? = some w →
    ∃ w', b'.wallets[userId]? = some w' ∧ w'.currency = w.currency

/-- The usage is recorded, and `currency` is the one of its wallet. -/
def Books.Knows (b : Books) (ev : PendingUsage) : Prop :=
  (∃ u ∈ b.usage.rows, u.event = ev.event) ∧ ∃ w : WalletRow, b.wallets[ev.event.userId]? = some w ∧ w.currency = ev.currency

/-- What a pass relies on. -/
structure Books.Steady (samePrice : Prop) (b b' : Books) : Prop extends b.Grows b' where
  prices : samePrice → b'.currentPrices = b.currentPrices
  atPrice : samePrice → ∀ ev, b.Knows ev → b.AtPrice ev → b'.AtPrice ev

variable {samePrice : Prop} {b b' b'' : Books} {m : Movement} {w : WalletRow} {ev ev' : PendingUsage}

theorem Books.Grows.refl (b : Books) : b.Grows b where
  transactions := List.Subset.refl _
  rateCard := List.Subset.refl _
  usage := fun u hu => ⟨u, hu, rfl⟩
  currency := fun _ w hw => ⟨w, hw, rfl⟩

theorem Books.Grows.trans (h : b.Grows b') (h' : b'.Grows b'') : b.Grows b'' where
  transactions := List.Subset.trans h.transactions h'.transactions
  rateCard := List.Subset.trans h.rateCard h'.rateCard
  usage := by
    intro u hu
    obtain ⟨u', hu', heq⟩ := h.usage u hu
    obtain ⟨u'', hu'', heq'⟩ := h'.usage u' hu'
    exact ⟨u'', hu'', heq'.trans heq⟩
  currency := by
    intro userId w hw
    obtain ⟨w', hw', hcur⟩ := h.currency userId w hw
    obtain ⟨w'', hw'', hcur'⟩ := h'.currency userId w' hw'
    exact ⟨w'', hw'', hcur'.trans hcur⟩

theorem Books.Knows.grows (h : b.Knows ev) (hgrows : b.Grows b') : b'.Knows ev := by
  obtain ⟨⟨u, hu, heq⟩, w, hw, hcur⟩ := h
  obtain ⟨u', hu', heq'⟩ := hgrows.usage u hu
  obtain ⟨w', hw', hcur'⟩ := hgrows.currency _ w hw
  exact ⟨⟨u', hu', heq'.trans heq⟩, w', hw', hcur'.trans hcur⟩

/-- A key is that of one event, in one currency. -/
theorem Books.Knows.eq_of_key (h : b.Knows ev) (h' : b.Knows ev')
    (hkey : chargeIdempotencyKey ev.event.idempotencyKey = chargeIdempotencyKey ev'.event.idempotencyKey) : ev = ev' := by
  obtain ⟨e, currency⟩ := ev
  obtain ⟨e', currency'⟩ := ev'
  obtain ⟨⟨u, hu, rfl⟩, w, hw, rfl⟩ := h
  obtain ⟨⟨u', hu', rfl⟩, w', hw', rfl⟩ := h'
  cases b.usage.eq_of_key_eq hu hu' (chargeIdempotencyKey_inj hkey)
  cases Option.some.inj (hw.symm.trans hw')
  rfl

theorem Books.Quotes.eq {price price' : Int} (h : b.Quotes ev price) (h' : b.Quotes ev price') : price = price' :=
  Option.some.inj (h.symm.trans h')

theorem Books.Steady.refl (b : Books) : b.Steady samePrice b := ⟨.refl b, fun _ => rfl, fun _ _ _ h => h⟩

theorem Books.Steady.trans (h : b.Steady samePrice b') (h' : b'.Steady samePrice b'') : b.Steady samePrice b'' where
  toGrows := h.toGrows.trans h'.toGrows
  prices := fun hsp => (h'.prices hsp).trans (h.prices hsp)
  atPrice := fun hsp ev hev hat => h'.atPrice hsp ev (hev.grows h.toGrows) (h.atPrice hsp ev hev hat)

/-- An event that is neither charged nor rated is at any price. -/
theorem Books.AtPrice.of_uncharged {u : UsageRow} (hu : u ∈ b.usage.rows) (hunrated : u.rating = none) {currency}
    (hcharge : ∀ t ∈ b.transactions.rows, t.key ≠ chargeIdempotencyKey u.key) : b.AtPrice ⟨u.event, currency⟩ where
  charged := fun _ _ t ht hkey => absurd hkey (hcharge t ht)
  free := by
    intro _ _ _ u' hu' hkey r hr
    rw [b.usage.eq_of_key_eq hu' hu hkey, hunrated] at hr
    cases hr

/-- The row under an event's charge key is its charge. -/
theorem Books.Kept.chargeOf_key (h : b.Kept samePrice) {u : UsageRow} (hu : u ∈ b.usage.rows) {t}
    (ht : t ∈ b.transactions.rows) (hkey : t.key = chargeIdempotencyKey u.key) : t.ChargeOf u.event := by
  obtain ⟨v, hv, hof⟩ := h.charges t ht (h.apart t ht _ hkey)
  have huv : v = u := b.usage.eq_of_key_eq hv hu (chargeIdempotencyKey_inj (hof.2.1.symm.trans hkey))
  exact huv ▸ hof

/-! ## Wallets -/

/-- Replacing a wallet's row by one of the same currency. -/
theorem Books.Grows.setWallet {userId} (w' : WalletRow) (hw : b.wallets[userId]? = some w)
    (hcur : w'.currency = w.currency) : b.Grows { b with wallets := b.wallets.insert userId w' } where
  transactions := List.Subset.refl _
  rateCard := List.Subset.refl _
  usage := fun u hu => ⟨u, hu, rfl⟩
  currency := by
    intro user w₀ hw₀
    rw [Table.getElem?_insert]
    split
    · rename_i heq
      rw [← heq, hw] at hw₀
      cases hw₀
      exact ⟨w', rfl, hcur⟩
    · exact ⟨w₀, hw₀, rfl⟩

/-- `rating_blocked_at` is not money. -/
theorem Books.Kept.setBlocked (h : b.Kept samePrice) (userId : String) (blockedAt : Option DateTime) :
    (b.setBlocked userId blockedAt).Kept samePrice ∧ b.Steady samePrice (b.setBlocked userId blockedAt) := by
  unfold Books.setBlocked
  split
  · exact ⟨h, .refl b⟩
  · rename_i w hw
    have hgrows : b.Grows { b with wallets := b.wallets.insert userId { w with ratingBlockedAt := blockedAt } } :=
      .setWallet _ hw rfl
    refine ⟨{ h with balance := ?_, owner := ?_, atPrice := ?_ }, hgrows, fun _ => rfl, fun _ _ _ hat => ⟨hat.charged, hat.free⟩⟩
    · intro user w' hw'
      simp only [Table.getElem?_insert] at hw'
      split at hw'
      · rename_i heq
        cases hw'
        exact h.balance user w (heq ▸ hw)
      · exact h.balance user w' hw'
    · intro t ht
      obtain ⟨w', hw', hcur⟩ := h.owner t ht
      obtain ⟨w'', hw'', hcur'⟩ := hgrows.currency _ w' hw'
      exact ⟨w'', hw'', hcur'.trans hcur⟩
    · intro hsp u hu hunrated w' hw'
      have hat : b.AtPrice ⟨u.event, w'.currency⟩ := by
        simp only [Table.getElem?_insert] at hw'
        split at hw'
        · rename_i heq
          cases hw'
          exact h.atPrice hsp u hu hunrated w (heq ▸ hw)
        · exact h.atPrice hsp u hu hunrated w' hw'
      exact ⟨hat.charged, hat.free⟩

theorem Books.Kept.createWallet (h : b.Kept samePrice) (userId currency : String) (creditLimitMinor : Int) :
    (b.createWallet userId currency creditLimitMinor).Kept samePrice ∧
      b.Steady samePrice (b.createWallet userId currency creditLimitMinor) := by
  unfold Books.createWallet
  split
  · exact ⟨h, .refl b⟩
  · rename_i hchecks
    split
    · exact ⟨h, .refl b⟩
    · rename_i hnone
      rw [Option.not_isSome_iff_eq_none] at hnone
      have hne : ∀ (user : String) (w : WalletRow), b.wallets[user]? = some w → userId ≠ user := by
        rintro user w hw rfl
        rw [hnone] at hw
        cases hw
      have hkeeps : ∀ (user : String) (w : WalletRow), b.wallets[user]? = some w →
          (b.wallets.insert userId ⟨currency, 0, creditLimitMinor, none⟩)[user]? = some w := by
        intro user w hw
        rw [Table.getElem?_insert, if_neg (hne user w hw)]
        exact hw
      refine ⟨{ h with balance := ?_, owner := ?_, atPrice := ?_ }, ?_, fun _ => rfl, fun _ _ _ hat => ⟨hat.charged, hat.free⟩⟩
      · intro user w' hw'
        simp only [Table.getElem?_insert] at hw'
        split at hw'
        · rename_i heq
          cases hw'
          -- no ledger row names a user without a wallet, so the new wallet's sum is zero
          have hsum : b.ledgerSum user = 0 := by
            apply Ledger.total_eq_zero
            intro t ht
            obtain ⟨w, hw, -⟩ := h.owner t ht
            simpa [heq] using (hne _ w hw).symm
          refine ⟨hsum.symm, ?_⟩
          rw [not_or] at hchecks
          show -creditLimitMinor ≤ 0
          omega
        · exact h.balance user w' hw'
      · intro t ht
        obtain ⟨w', hw', hcur⟩ := h.owner t ht
        exact ⟨w', hkeeps _ w' hw', hcur⟩
      · intro hsp u hu hunrated w' hw'
        simp only [Table.getElem?_insert] at hw'
        split at hw'
        · rename_i heq
          refine AtPrice.of_uncharged hu hunrated fun t ht hkey => ?_
          obtain ⟨w, hw, -⟩ := h.owner t ht
          exact hne _ w hw (heq.trans (h.chargeOf_key hu ht hkey).2.2.1.symm)
        · have hat := h.atPrice hsp u hu hunrated w' hw'
          exact ⟨hat.charged, hat.free⟩
      · exact ⟨List.Subset.refl _, List.Subset.refl _, fun u hu => ⟨u, hu, rfl⟩, fun user w hw => ⟨w, hkeeps user w hw, rfl⟩⟩

/-! ## Usage and prices -/

theorem Books.PricedAs.grows {e r} (h : b.PricedAs e r) (hgrows : b.Grows b')
    (hcharges : r.transactionId = none → ∀ t ∈ b'.transactions.rows, t ∉ b.transactions.rows →
      t.movement.kind = .charge → t.key ≠ chargeIdempotencyKey e.idempotencyKey) : b'.PricedAs e r := by
  unfold PricedAs at h ⊢
  split at h
  · obtain ⟨t, ht, hid, price, hprice, hamount⟩ := h
    exact ⟨t, hgrows.transactions ht, hid, price, hgrows.rateCard hprice, hamount⟩
  · rename_i hnone
    intro t ht hkind
    by_cases hold : t ∈ b.transactions.rows
    · exact h t hold hkind
    · exact hcharges hnone t ht hold hkind

/-- A price may change while no charge waits for its mark. -/
theorem Books.Kept.addPrice (h : b.Kept samePrice) (p : PriceRow) (hmarked : samePrice → ∀ u ∈ b.usage.rows, u.rating = none →
    ∀ t ∈ b.transactions.rows, t.key ≠ chargeIdempotencyKey u.key) :
    (b.addPrice p).Kept samePrice ∧ b.Grows (b.addPrice p) := by
  unfold Books.addPrice
  split
  · exact ⟨h, .refl b⟩
  · have hgrows : b.Grows { b with rateCard := b.rateCard.post p } :=
      { Grows.refl b with rateCard := fun q hq => Ledger.mem_post_of_mem hq }
    refine ⟨{ h with priced := ?_, atPrice := ?_ }, hgrows⟩
    · intro hsame u hu r hr
      exact (h.priced hsame u hu r hr).grows hgrows fun _ t ht hnew => absurd ht hnew
    · intro hsp u hu hunrated _ _
      exact AtPrice.of_uncharged hu hunrated (hmarked hsp u hu hunrated)

theorem Books.Kept.recordUsage (h : b.Kept samePrice) (userId broadcastId : String) (unit : BillableUnit)
    (quantityMilli : Int) (idempotencyKey : String) (occurredAt : DateTime) :
    (b.recordUsage userId broadcastId unit quantityMilli idempotencyKey occurredAt).Kept samePrice ∧
      b.Steady samePrice (b.recordUsage userId broadcastId unit quantityMilli idempotencyKey occurredAt) := by
  unfold Books.recordUsage
  split
  · exact ⟨h, .refl b⟩
  · set new : UsageRow := ⟨⟨b.nextUsage, userId, broadcastId, unit, quantityMilli, idempotencyKey, occurredAt⟩, none⟩ with hnew
    have hmem : ∀ u ∈ (b.usage.post new).rows, u ∈ b.usage.rows ∨ u = new := fun u hu => Ledger.mem_post hu
    obtain ⟨hbelow, hids⟩ := Ledger.post_numbered (fun u => u.event.id) UsageRow.event (a := new) rfl h.usageId_lt h.usageId_inj
    have hkeeps : ∀ ev, b.AtPrice ev → AtPrice { b with usage := b.usage.post new, nextUsage := b.nextUsage + 1 } ev := by
      refine fun ev hat => ⟨hat.charged, fun price hquotes hne u hu hkey r hr => ?_⟩
      rcases hmem u hu with hold | rfl
      · exact hat.free price hquotes hne u hold hkey r hr
      · cases hr
    refine ⟨{ h with usageId_lt := hbelow, usageId_inj := hids, charges := ?_, rated := ?_, priced := ?_, atPrice := ?_ },
      ?_, fun _ => rfl, fun _ ev _ => hkeeps ev⟩
    · intro t ht hkind
      obtain ⟨u, hu, hcharge⟩ := h.charges t ht hkind
      exact ⟨u, Ledger.mem_post_of_mem hu, hcharge⟩
    · intro u hu r hr
      rcases hmem u hu with hold | rfl
      · exact h.rated u hold r hr
      · cases hr
    · intro hsame u hu r hr
      rcases hmem u hu with hold | rfl
      · exact h.priced hsame u hold r hr
      · cases hr
    · intro hsp u hu hunrated w hw
      by_cases hold : u ∈ b.usage.rows
      · exact hkeeps _ (h.atPrice hsp u hold hunrated w hw)
      · -- a key that has a charge is that of recorded usage
        refine AtPrice.of_uncharged hu hunrated fun t ht hkey => ?_
        obtain ⟨v, hv, hof⟩ := h.charges t ht (h.apart t ht _ hkey)
        have huv : v = u := Ledger.eq_of_key_eq (Ledger.mem_post_of_mem hv) hu (chargeIdempotencyKey_inj (hof.2.1.symm.trans hkey))
        exact hold (huv ▸ hv)
    · exact { Grows.refl b with usage := fun u hu => ⟨u, Ledger.mem_post_of_mem hu, rfl⟩ }

/-- A mark settles the one event that has its id. -/
theorem Books.Kept.rate (h : b.Kept samePrice) {eventId} {r : RatedAs}
    (hrated : ∀ u ∈ b.usage.rows, u.event.id = eventId → ∀ id ∈ r.transactionId,
      ∃ t ∈ b.transactions.rows, t.id = id ∧ t.key = chargeIdempotencyKey u.key)
    (hpriced : samePrice → ∀ u ∈ b.usage.rows, u.event.id = eventId → b.PricedAs u.event r)
    (hfree : samePrice → r.transactionId = none → ∀ ev price, b.Knows ev → ev.event.id = eventId → b.Quotes ev price →
      chargeMinor ev.event.quantityMilli price = 0) :
    (b.rate eventId r).Kept samePrice ∧ b.Steady samePrice (b.rate eventId r) := by
  have hmem : ∀ u ∈ (b.rate eventId r).usage.rows, ∃ v ∈ b.usage.rows, v.event = u.event ∧
      (u.rating = v.rating ∨ v.event.id = eventId ∧ u.rating = some r) := by
    intro u hu
    obtain ⟨v, hv, rfl⟩ := List.mem_map.mp hu
    refine ⟨v, hv, (v.event_rate eventId r).symm, ?_⟩
    unfold UsageRow.rate
    split
    · exact .inr ⟨‹_ ∧ _›.1, rfl⟩
    · exact .inl rfl
  have hold : ∀ v ∈ b.usage.rows, ∃ u ∈ (b.rate eventId r).usage.rows, u.event = v.event :=
    fun v hv => ⟨_, List.mem_map_of_mem hv, v.event_rate eventId r⟩
  have hkeeps : samePrice → ∀ ev, b.Knows ev → b.AtPrice ev → (b.rate eventId r).AtPrice ev := by
    refine fun hsp ev hev hat => ⟨hat.charged, fun price hquotes hne u hu hkey r' hr' hnone => ?_⟩
    obtain ⟨v, hv, heq, hcase⟩ := hmem u hu
    have hkey' : v.key = ev.event.idempotencyKey := (congrArg UsageEvent.idempotencyKey heq).trans hkey
    rcases hcase with hsame | ⟨hevent, hnew⟩
    · exact hat.free price hquotes hne v hv hkey' r' (hsame ▸ hr') hnone
    · rw [hnew] at hr'
      cases hr'
      obtain ⟨v', hv', hve⟩ := hev.1
      have hvv : v' = v := b.usage.eq_of_key_eq hv' hv ((congrArg UsageEvent.idempotencyKey hve).trans hkey'.symm)
      exact hne (hfree hsp hnone ev price hev (by rw [← hve, hvv, hevent]) hquotes)
  refine ⟨{ h with usageId_lt := ?_, usageId_inj := ?_, charges := ?_, rated := ?_, priced := ?_, atPrice := ?_ },
    ?_, fun _ => rfl, hkeeps⟩
  · intro u hu
    obtain ⟨v, hv, heq, -⟩ := hmem u hu
    exact heq ▸ h.usageId_lt v hv
  · intro u hu u' hu' heq
    obtain ⟨v, hv, hve, -⟩ := hmem u hu
    obtain ⟨v', hv', hve', -⟩ := hmem u' hu'
    rw [← hve, ← hve'] at heq ⊢
    exact h.usageId_inj v hv v' hv' heq
  · intro t ht hkind
    obtain ⟨v, hv, hcharge⟩ := h.charges t ht hkind
    obtain ⟨u, hu, heq⟩ := hold v hv
    exact ⟨u, hu, heq ▸ hcharge⟩
  · intro u hu r' hr' id hid
    obtain ⟨v, hv, heq, hcase⟩ := hmem u hu
    have hkey : u.key = v.key := congrArg UsageEvent.idempotencyKey heq.symm
    rw [hkey]
    rcases hcase with hsame | ⟨hevent, hnew⟩
    · exact h.rated v hv r' (hsame ▸ hr') id hid
    · rw [hnew] at hr'
      cases hr'
      exact hrated v hv hevent id hid
  · intro hsp u hu r' hr'
    obtain ⟨v, hv, heq, hcase⟩ := hmem u hu
    rw [← heq]
    rcases hcase with hsame | ⟨hevent, hnew⟩
    · exact h.priced hsp v hv r' (hsame ▸ hr')
    · rw [hnew] at hr'
      cases hr'
      exact hpriced hsp v hv hevent
  · intro hsp u hu hunrated w hw
    obtain ⟨v, hv, heq, hcase⟩ := hmem u hu
    rcases hcase with hsame | ⟨-, hnew⟩
    · rw [← heq] at hw ⊢
      exact hkeeps hsp _ ⟨⟨v, hv, rfl⟩, w, hw, rfl⟩ (h.atPrice hsp v hv (hsame ▸ hunrated) w hw)
    · rw [hnew] at hunrated
      cases hunrated
  · exact { Grows.refl b with usage := hold }

/-! ## The ledger -/

/-- What an insert into the ledger does: the row is added and its wallet moves, or nothing. -/
theorem insertTransaction_cases (b : Books) (m : Movement) :
    (∃ w, b.insertTransaction m = (b.apply m w, .ok ()) ∧ m.idempotencyKey ∉ b.transactions.rows.map Transaction.key ∧
      b.wallets[m.userId]? = some w ∧ w.currency = m.currency ∧ -w.creditLimitMinor ≤ w.balanceMinor + m.amountMinor) ∨
    ∃ e, b.insertTransaction m = (b, .error e) ∧
      (e.constraint = some .withinCreditLimit → m.idempotencyKey ∉ b.transactions.rows.map Transaction.key) := by
  unfold insertTransaction
  split
  · exact .inr ⟨_, rfl, by simp [violated, databaseError]⟩
  · split
    · exact .inr ⟨_, rfl, by simp [violated, databaseError]⟩
    · rename_i hkey
      split
      · exact .inr ⟨_, rfl, by simp [violated, databaseError]⟩
      · rename_i w hw
        split
        · exact .inr ⟨_, rfl, by simp [violated, databaseError]⟩
        · rename_i hcur
          split
          · exact .inr ⟨_, rfl, by simp [databaseError]⟩
          · split
            · exact .inr ⟨_, rfl, fun _ => hkey⟩
            · rename_i hlimit
              exact .inl ⟨w, rfl, hkey, hw, not_not.mp hcur, not_lt.mp hlimit⟩

section
variable (hkey : m.idempotencyKey ∉ b.transactions.rows.map Transaction.key)
include hkey

theorem rows_apply :
    (b.apply m w).transactions.rows = b.transactions.rows ++ [⟨b.nextTransaction, m⟩] :=
  Ledger.rows_post_of_notMem hkey

theorem ledgerSum_apply (userId : String) :
    (b.apply m w).ledgerSum userId = b.ledgerSum userId + if m.userId = userId then m.amountMinor else 0 := by
  have hpost : (b.apply m w).ledgerSum userId =
      b.ledgerSum userId + if decide (m.userId = userId) = true then m.amountMinor else 0 :=
    Ledger.total_post_of_notMem hkey
  simpa only [decide_eq_true_eq] using hpost

theorem grows_apply
    (hw : b.wallets[m.userId]? = some w) : b.Grows (b.apply m w) := by
  have hset := Grows.setWallet { w with balanceMinor := w.balanceMinor + m.amountMinor } hw rfl
  refine ⟨?_, List.Subset.refl _, fun u hu => ⟨u, hu, rfl⟩, hset.currency⟩
  rw [rows_apply hkey]
  exact List.subset_append_left _ _

end

theorem wallet_apply {user w'} (h : (b.apply m w).wallets[user]? = some w') :
    m.userId = user ∧ w' = { w with balanceMinor := w.balanceMinor + m.amountMinor } ∨
      m.userId ≠ user ∧ b.wallets[user]? = some w' := by
  simp only [apply, Table.getElem?_insert] at h
  split at h
  · rename_i heq
    exact .inl ⟨heq, (Option.some.inj h).symm⟩
  · rename_i hne
    exact .inr ⟨hne, h⟩

/-- An insert that keeps to its key space, and to the current price, keeps the books. -/
theorem Books.Kept.insertTransaction (h : b.Kept samePrice)
    (hcharge : m.kind = .charge → ∃ u ∈ b.usage.rows, ∀ id, Transaction.ChargeOf ⟨id, m⟩ u.event)
    (hapart : ∀ k, m.idempotencyKey = chargeIdempotencyKey k → m.kind = .charge)
    (hzero : samePrice → m.kind = .charge → ∀ u ∈ b.usage.rows, m.idempotencyKey = chargeIdempotencyKey u.key →
      ∀ r ∈ u.rating, r.transactionId ≠ none)
    (hprice : samePrice → ∀ ev price, b.Knows ev → m.idempotencyKey = chargeIdempotencyKey ev.event.idempotencyKey →
      b.Quotes ev price → -m.amountMinor = chargeMinor ev.event.quantityMilli price ∧ chargeMinor ev.event.quantityMilli price ≠ 0) :
    (b.insertTransaction m).1.Kept samePrice ∧ b.Steady samePrice (b.insertTransaction m).1 := by
  rcases insertTransaction_cases b m with ⟨w, heq, hkey, hw, hcur, hlimit⟩ | ⟨e, heq, -⟩ <;> rw [heq]
  case inr => exact ⟨h, .refl b⟩
  have hgrows := grows_apply hkey hw
  have hmem : ∀ t ∈ (b.apply m w).transactions.rows, t ∈ b.transactions.rows ∨ t = ⟨b.nextTransaction, m⟩ :=
    fun t ht => Ledger.mem_post ht
  obtain ⟨hbelow, hids⟩ :=
    Ledger.post_numbered Transaction.id (fun t => t) (a := ⟨b.nextTransaction, m⟩) rfl h.transactionId_lt h.transactionId_inj
  have hkeeps : samePrice → ∀ ev, b.Knows ev → b.AtPrice ev → (b.apply m w).AtPrice ev := by
    refine fun hsp ev hev hat => ⟨fun price hquotes t ht hk => ?_, hat.free⟩
    rcases hmem t ht with hold | rfl
    · exact hat.charged price hquotes t hold hk
    · exact hprice hsp ev price hev hk hquotes
  refine ⟨{ h with balance := ?_, owner := ?_, transactionId_lt := hbelow, transactionId_inj := hids, charges := ?_,
                   apart := ?_, rated := ?_, priced := ?_, atPrice := ?_ }, hgrows, fun _ => rfl, hkeeps⟩
  · intro user w' hw'
    rw [ledgerSum_apply hkey]
    rcases wallet_apply hw' with ⟨heq, rfl⟩ | ⟨hne, hold⟩
    · rw [if_pos heq, ← (h.balance user w (heq ▸ hw)).1]
      exact ⟨rfl, hlimit⟩
    · rw [if_neg hne, add_zero]
      exact h.balance user w' hold
  · intro t ht
    rcases hmem t ht with hold | rfl
    · obtain ⟨w', hw', hcur'⟩ := h.owner t hold
      obtain ⟨w'', hw'', hcur''⟩ := hgrows.currency _ w' hw'
      exact ⟨w'', hw'', hcur''.trans hcur'⟩
    · obtain ⟨w'', hw'', hcur''⟩ := hgrows.currency _ w hw
      exact ⟨w'', hw'', hcur''.trans hcur⟩
  · intro t ht hkind
    rcases hmem t ht with hold | rfl
    · exact h.charges t hold hkind
    · obtain ⟨u, hu, hof⟩ := hcharge hkind
      exact ⟨u, hu, hof _⟩
  · intro t ht k hk
    rcases hmem t ht with hold | rfl
    · exact h.apart t hold k hk
    · exact hapart k hk
  · intro u hu r hr id hid
    obtain ⟨t, ht, hid', hkey'⟩ := h.rated u hu r hr id hid
    exact ⟨t, hgrows.transactions ht, hid', hkey'⟩
  · intro hsame u hu r hr
    apply (h.priced hsame u hu r hr).grows hgrows
    intro hnone t ht hnew hkind hk
    rcases hmem t ht with hold | rfl
    · exact hnew hold
    · exact hzero hsame hkind u hu hk r hr hnone
  · intro hsp u hu hunrated w' hw'
    obtain ⟨w₀, hw₀, hcur₀⟩ : ∃ w₀ : WalletRow, b.wallets[u.event.userId]? = some w₀ ∧ w₀.currency = w'.currency := by
      rcases wallet_apply hw' with ⟨heq, rfl⟩ | ⟨-, hold⟩
      · exact ⟨w, heq ▸ hw, rfl⟩
      · exact ⟨w', hold, rfl⟩
    rw [← hcur₀]
    exact hkeeps hsp _ ⟨⟨u, hu, rfl⟩, w₀, hw₀, rfl⟩ (h.atPrice hsp u hu hunrated w₀ hw₀)

/-! ## The discipline -/

/-- Other movements are no charges and keep out of the charges' keys. -/
def Apart : Move → Prop
  | .movement m => m.kind ≠ .charge ∧ Text.startsWith "rate:" m.idempotencyKey = false
  | _ => True

instance (mv : Move) : Decidable (Apart mv) := by
  unfold Apart
  split <;> infer_instance

/-- The charge a pass makes for an event at a price. -/
def chargeFor (ev : PendingUsage) (price : Int) : Movement :=
  chargeMovement ev.event.userId ev.currency (chargeMinor ev.event.quantityMilli price)
    (chargeIdempotencyKey ev.event.idempotencyKey) (some ev.event.broadcastId)

/-- What a pass may ask for: to charge recorded usage, to mark it with the row that
carries its charge key, and to mark as free what the current card has no charge for. -/
def Allowed (samePrice : Prop) (b : Books) : Statement → Prop
  | .insertTransaction m => ∃ ev price, b.Knows ev ∧ m = chargeFor ev price ∧ chargeMinor ev.event.quantityMilli price ≠ 0 ∧
      (samePrice → b.AtPrice ev ∧ b.Quotes ev price)
  | .markRated eventId version transactionId _ =>
    ∃ ev, b.Knows ev ∧ ev.event.id = eventId ∧ ∃ t ∈ b.transactions.rows, t.id = transactionId ∧
      t.key = chargeIdempotencyKey ev.event.idempotencyKey ∧ (samePrice → ∃ price,
        ⟨version, ev.currency, ev.event.unit, price⟩ ∈ b.rateCard.rows ∧
          -t.movement.amountMinor = chargeMinor ev.event.quantityMilli price)
  | .markRatedWithoutCharge eventId _ _ => ∃ ev price, b.Knows ev ∧ ev.event.id = eventId ∧
      chargeMinor ev.event.quantityMilli price = 0 ∧ (samePrice → b.AtPrice ev ∧ b.Quotes ev price)
  | _ => True

theorem request_fst (b : Books) (q : Statement) (fate : Fate) :
    (b.request q fate).1 = b ∨ (b.request q fate).1 = (b.execute q).1 := by
  cases fate with
  | answered => exact .inr rfl
  | failed message => exact .inl rfl
  | unacknowledged message => exact .inr rfl

/-- The row under an event's charge key is in the currency of the event's wallet. -/
theorem Books.Kept.currency_of_key (h : b.Kept samePrice) (hev : b.Knows ev) {t}
    (ht : t ∈ b.transactions.rows) (hkey : t.key = chargeIdempotencyKey ev.event.idempotencyKey) : t.movement.currency = ev.currency := by
  obtain ⟨⟨u, hu, heq⟩, w, hw, hcur⟩ := hev
  have hof : t.ChargeOf u.event := h.chargeOf_key hu ht (by rw [hkey, UsageRow.key, heq])
  obtain ⟨w', hw', hcur'⟩ := h.owner t ht
  rw [hof.2.2.1, heq, hw] at hw'
  cases hw'
  exact hcur'.symm.trans hcur

theorem Books.Kept.event_of_id (h : b.Kept samePrice) (hev : b.Knows ev) {u} (hu : u ∈ b.usage.rows)
    (hid : u.event.id = ev.event.id) : u.event = ev.event := by
  obtain ⟨⟨v, hv, hve⟩, -⟩ := hev
  rw [← hve]
  apply h.usageId_inj u hu v hv
  rw [hid, hve]

theorem Books.Kept.execute (h : b.Kept samePrice) {q} (hallowed : Allowed samePrice b q) :
    (b.execute q).1.Kept samePrice ∧ b.Steady samePrice (b.execute q).1 := by
  cases q with
  | unratedWithoutWallet | unratedEvents | currentPrices | wallet | transactionIdForKey => exact ⟨h, .refl b⟩
  | blockRating userId now => exact h.setBlocked userId (some now)
  | unblockRating userId => exact h.setBlocked userId none
  | insertTransaction m =>
    obtain ⟨ev, price, hev, rfl, hne, hat⟩ := hallowed
    obtain ⟨u, hu, heq⟩ := hev.1
    refine h.insertTransaction (fun _ => ⟨u, hu, fun id => ?_⟩) (fun _ _ => rfl) (fun hsp _ u' hu' hkey => ?_)
      fun hsp ev' price' hev' hkey hquotes => ?_
    · rw [heq]
      exact ⟨rfl, rfl, rfl, rfl⟩
    · exact (hat hsp).1.free price (hat hsp).2 hne u' hu' (chargeIdempotencyKey_inj hkey).symm
    · cases hev.eq_of_key hev' hkey
      cases (hat hsp).2.eq hquotes
      exact ⟨neg_neg _, hne⟩
  | markRated eventId version transactionId ratedAt =>
    obtain ⟨ev, hev, rfl, t, ht, htid, hkey, hprice⟩ := hallowed
    refine h.rate ?_ ?_ fun _ hnone => by cases hnone
    · intro u hu huid id hmem
      cases hmem
      refine ⟨t, ht, htid, ?_⟩
      rw [hkey, UsageRow.key, h.event_of_id hev hu huid]
    · intro hsp u hu huid
      obtain ⟨price, hrow, hamount⟩ := hprice hsp
      rw [h.event_of_id hev hu huid]
      refine ⟨t, ht, htid, price, ?_, hamount⟩
      rw [h.currency_of_key hev ht hkey]
      exact hrow
  | markRatedWithoutCharge eventId version ratedAt =>
    obtain ⟨ev, price, hev, rfl, hzero, hat⟩ := hallowed
    refine h.rate ?_ ?_ ?_
    · intro u _ _ id hmem
      cases hmem
    · intro hsp u hu huid t ht _ hkey
      rw [h.event_of_id hev hu huid] at hkey
      exact ((hat hsp).1.charged price (hat hsp).2 t ht hkey).2 hzero
    · intro hsp _ ev' price' hev' hid hquotes
      obtain ⟨u', hu', heq'⟩ := hev'.1
      cases hev.eq_of_key hev' (by rw [← h.event_of_id hev hu' (by rw [heq', hid]), heq'])
      rw [← (hat hsp).2.eq hquotes, hzero]

/-- Of the moves a pass may have beside it. -/
def Beside (samePrice : Prop) (mv : Move) : Prop := Apart mv ∧ (samePrice → ∀ p, mv ≠ .price p)

theorem Books.Kept.move (h : b.Kept samePrice) {mv} (hbeside : Beside samePrice mv) :
    (b.move mv).Kept samePrice ∧ b.Steady samePrice (b.move mv) := by
  obtain ⟨hapart, hprice⟩ := hbeside
  cases mv with
  | usage userId broadcastId unit quantityMilli idempotencyKey occurredAt => exact h.recordUsage ..
  | wallet userId currency creditLimitMinor => exact h.createWallet userId currency creditLimitMinor
  | price p =>
    have hno : ¬samePrice := fun hsp => hprice hsp p rfl
    obtain ⟨hkept, hgrows⟩ := h.addPrice p fun hsp => absurd hsp hno
    exact ⟨hkept, hgrows, fun hsp => absurd hsp hno, fun hsp => absurd hsp hno⟩
  | movement m =>
    obtain ⟨hkind, hkey⟩ := hapart
    have hno : ∀ k, m.idempotencyKey ≠ chargeIdempotencyKey k := by
      intro k hk
      have : Text.startsWith "rate:" m.idempotencyKey = true := Text.startsWith_iff.mpr ⟨k, hk⟩
      rw [this] at hkey
      cases hkey
    exact h.insertTransaction (fun hcharge => absurd hcharge hkind) (fun k hk => absurd hk (hno k))
      (fun _ hcharge => absurd hcharge hkind) fun _ _ _ _ hk => absurd hk (hno _)

/-- The discipline of the passes. -/
def bookkeeping (samePrice : Prop) : Discipline database where
  inv := Kept samePrice
  rely := Steady samePrice
  allowed := Allowed samePrice
  admits := fun _ _ _ => True
  moves := fun _ mv => Beside samePrice mv
  rely_refl := Steady.refl
  rely_trans := Steady.trans
  request_keeps := by
    intro b q fate h hallowed _
    show (b.request q fate).1.Kept samePrice ∧ b.Steady samePrice (b.request q fate).1
    rcases request_fst b q fate with hsame | hexec
    · rw [hsame]
      exact ⟨h, .refl b⟩
    · rw [hexec]
      exact h.execute hallowed
  move_keeps := fun h hbeside => h.move hbeside

end MatrixMedia.Rating
