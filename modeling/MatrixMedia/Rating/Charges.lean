import MatrixMedia.Rating.Settlement

/-!
# What a pass does

The pass keeps to the discipline (`ratePending_safe`): the usage it works on and the
prices it read stay recorded while others run, and the row under an event's charge key is
at the event's price if that is promised. The second half is about one attempt: after a refused
charge, or without a price, the loop's body asks for nothing that moves money or marks an
event (`unpaid_attempt`).
-/

namespace MatrixMedia.Rating

open Lib Lib.Chrono Lib.Interaction Safe List

variable {samePrice : Prop} {b b' : Books} {m : Movement} {ev : PendingUsage} {price : Int} {q : Statement} {fate : Fate}

/-! ## What a reply says -/

theorem request_ok {a} (h : b.request q fate = (b', .ok a)) : b.execute q = (b', .ok a) := by
  cases fate with
  | answered => exact h
  | failed | unacknowledged => cases h

/-- A charge is refused for want of funds only under a free key, and changes nothing. -/
theorem insert_error {e} (h : b.request (.insertTransaction m) fate = (b', .error e)) (hc : e.constraint = some .withinCreditLimit) :
    b' = b ∧ ∀ t ∈ b.transactions.rows, t.key ≠ m.idempotencyKey := by
  cases fate with
  | failed message | unacknowledged message =>
    cases h
    cases hc
  | answered =>
    have hexec : b.insertTransaction m = (b', .error e) := h
    rcases insertTransaction_cases b m with ⟨w, heq, -⟩ | ⟨e', heq, hrefused⟩
    · rw [heq] at hexec
      cases hexec
    · rw [heq] at hexec
      cases hexec
      exact ⟨rfl, fun t ht hkey => hrefused hc (mem_map.mpr ⟨t, ht, hkey⟩)⟩

theorem transactionIdForKey_mem {key id} (h : b.transactionIdForKey key = some id) :
    ∃ t ∈ b.transactions.rows, t.id = id ∧ t.key = key := by
  obtain ⟨t, hfind, hid⟩ := Option.map_eq_some_iff.mp h
  exact ⟨t, mem_of_find?_eq_some hfind, hid, by simpa using find?_some hfind⟩

/-- Recorded usage whose charge, if there is one, is that at the current price. -/
def Books.Ready (samePrice : Prop) (b : Books) (ev : PendingUsage) : Prop := b.Knows ev ∧ (samePrice → b.AtPrice ev)

theorem Books.Ready.grows (h : b.Ready samePrice ev) (hgrows : b.Steady samePrice b') : b'.Ready samePrice ev :=
  ⟨h.1.grows hgrows.toGrows, fun hsp => hgrows.atPrice hsp ev h.1 (h.2 hsp)⟩

/-- The queue holds such usage, in the currency of its wallet. -/
theorem unratedEvents_ready (hkept : b.Kept samePrice) {limit pending} (h : b.unratedEvents limit = .ok pending) :
    ∀ ev ∈ pending, b.Ready samePrice ev := by
  unfold Books.unratedEvents at h
  split at h
  · cases h
  · cases h
    intro ev hev
    obtain ⟨x, hx, rfl⟩ := mem_map.mp hev
    have hmem : x ∈ b.unratedWithWallet := (mem_insertionSort _).mp (mem_of_mem_take hx)
    obtain ⟨u, hu, hjoin⟩ := mem_filterMap.mp hmem
    obtain ⟨w, hw, rfl⟩ := Option.map_eq_some_iff.mp hjoin
    obtain ⟨hu, hunrated⟩ := mem_filter.mp hu
    exact ⟨⟨⟨u, hu, rfl⟩, w, hw, rfl⟩, fun hsp => hkept.atPrice hsp u hu (of_decide_eq_true hunrated) w hw⟩

/-- The prices of a card are rows of the rate card, and the current ones if that is promised. -/
def Books.HasCard (samePrice : Prop) (b : Books) (currency : String) (card : Option RateCard) : Prop :=
  (∀ c ∈ card, ∀ unit price, c.price? unit = some price → ⟨c.version, currency, unit, price⟩ ∈ b.rateCard.rows) ∧
    (samePrice → b.currentPrices currency = card)

variable {version : Int} {es : List ((q : Statement) × q.Reply)} {now : DateTime} {st : PassState} {card : Option RateCard}

theorem Books.HasCard.grows {currency} (h : b.HasCard samePrice currency card)
    (hgrows : b.Steady samePrice b') : b'.HasCard samePrice currency card :=
  ⟨fun c hc unit price hprice => hgrows.rateCard (h.1 c hc unit price hprice), fun hsp => by rw [hgrows.prices hsp, h.2 hsp]⟩

theorem currentPrices_hasCard (b : Books) (currency : String) : b.HasCard samePrice currency (b.currentPrices currency) := by
  refine ⟨fun c hc unit price hprice => ?_, fun _ => rfl⟩
  simp only [Books.currentPrices] at hc
  split at hc
  · cases hc
  · rename_i p rest hrows
    cases hc
    obtain ⟨x, hfind, hx⟩ := Option.map_eq_some_iff.mp hprice
    obtain ⟨row, hrow, rfl⟩ := mem_map.mp (mem_of_find?_eq_some hfind)
    have hnewest : ∀ r ∈ p :: rest, r ∈ b.rateCard.rows ∧ r.currency = currency ∧
        some r.version = ((b.rateCard.rows.filter fun p => p.currency = currency).map PriceRow.version).max? := by
      intro r hr
      rw [← hrows, mem_filter, mem_filter] at hr
      simpa [and_assoc] using hr
    obtain ⟨hmem, hcur, hversion⟩ := hnewest row hrow
    obtain ⟨-, -, hp⟩ := hnewest p mem_cons_self
    have hunit : row.unit = unit := by simpa using find?_some hfind
    have heq : row = ⟨p.version, currency, unit, price⟩ := by
      rw [← hversion, Option.some.injEq] at hp
      rw [hp, ← hcur, ← hunit, ← hx]
    exact heq ▸ hmem

/-! ## The pass keeps to the discipline -/

/-- Every card the pass has read. -/
def Books.HasCards (samePrice : Prop) (b : Books) (cards : Std.TreeMap String (Option RateCard)) : Prop :=
  ∀ (currency : String) (card : Option RateCard), cards[currency]? = some card → b.HasCard samePrice currency card

theorem Books.HasCards.grows {cards} (h : b.HasCards samePrice cards) (hgrows : b.Steady samePrice b') :
    b'.HasCards samePrice cards :=
  fun currency card hcard => (h currency card hcard).grows hgrows

/-- What the loop's body leaves for the next event. -/
abbrev Leaves (samePrice : Prop) : Except String PassState → Books → Prop := Returns fun st b => b.HasCards samePrice st.cards

/-- The event is due at this price: it is ready, and the price is the current one if that is promised. -/
def Books.Due (samePrice : Prop) (b : Books) (ev : PendingUsage) (price : Int) : Prop :=
  b.Ready samePrice ev ∧ (samePrice → b.Quotes ev price)

theorem Books.Due.grows (h : b.Due samePrice ev price) (hgrows : b.Steady samePrice b') : b'.Due samePrice ev price :=
  ⟨h.1.grows hgrows, fun hsp => by rw [Books.Quotes, hgrows.prices hsp]; exact h.2 hsp⟩

theorem Books.Due.both (h : b.Due samePrice ev price) (hsp : samePrice) : b.AtPrice ev ∧ b.Quotes ev price := ⟨h.1.2 hsp, h.2 hsp⟩

theorem leaves_ret (st : PassState) (h : b.HasCards samePrice st.cards) : Safe (bookkeeping samePrice) (Leaves samePrice) (.ret (.ok st)) b :=
  ok fun _ _ hgrows => h.grows hgrows

theorem block_safe (userId : String) (now : DateTime) (st : PassState) (h : b.HasCards samePrice st.cards)
    {f : PassState → PassState} (hf : ∀ st, (f st).cards = st.cards) :
    Safe (bookkeeping samePrice) (Leaves samePrice) ((block userId now st).bind fun st => .ret (.ok (f st))) b := by
  apply call
  intro b' _ hgrows
  refine ⟨trivial, ?_⟩
  intro b'' r _ _ hgrows'
  have hcards := h.grows (hgrows.trans hgrows')
  cases r with
  | ok _ => exact leaves_ret (f st) (by rw [hf]; exact hcards)
  | error e => exact leaves_ret (f _) (by rw [hf]; exact hcards)

theorem loadCard_safe (currency : String) (h : b.HasCards samePrice st.cards) :
    Safe (bookkeeping samePrice) (Returns fun loaded b => b.HasCard samePrice currency loaded.1 ∧ b.HasCards samePrice loaded.2.cards)
      (loadCard currency st) b := by
  unfold loadCard
  split
  · rename_i card hcard
    apply ok
    intro b' _ hgrows
    exact ⟨(h currency card hcard).grows hgrows, h.grows hgrows⟩
  · apply call
    intro b' _ hgrows
    refine ⟨trivial, ?_⟩
    intro b'' r hanswer _ hgrows'
    cases r with
    | error e => exact error _
    | ok loaded =>
      obtain ⟨fate, -, hreq⟩ := hanswer
      cases request_ok hreq
      apply ok
      intro b₃ _ hgrows₃
      have hcard := (currentPrices_hasCard b' currency).grows hgrows₃
      refine ⟨hcard, ?_⟩
      intro cur card hget
      simp only [Table.getElem?_insert] at hget
      split at hget
      · rename_i heq
        cases hget
        exact heq ▸ hcard
      · exact ((h.grows hgrows).grows hgrows₃) cur card hget

section

variable (now : DateTime)

theorem markZeroRated_safe (version : Int) (h : b.HasCards samePrice st.cards) (hdue : b.Due samePrice ev price)
    (hzero : chargeMinor ev.event.quantityMilli price = 0) :
    Safe (bookkeeping samePrice) (Leaves samePrice) ((markZeroRated now ev version st).bind fun st => .ret (.ok st)) b := by
  apply call
  intro b' _ hgrows
  have hdue' := hdue.grows hgrows
  refine ⟨⟨ev, price, hdue'.1.1, rfl, hzero, hdue'.both⟩, ?_⟩
  intro b'' r _ _ hgrows'
  have hcards := h.grows (hgrows.trans hgrows')
  cases r with
  | ok | error => exact leaves_ret _ hcards

theorem charge_safe (hdue : b.Due samePrice ev price) (hamount : chargeMinor ev.event.quantityMilli price ≠ 0) :
    Safe (bookkeeping samePrice) (fun _ _ => True)
      (charge ev.event.userId ev.currency (chargeMinor ev.event.quantityMilli price)
        (chargeIdempotencyKey ev.event.idempotencyKey) (some ev.event.broadcastId)) b := by
  have hpos : ¬ chargeMinor ev.event.quantityMilli price ≤ 0 := by
    have := chargeMinor_nonneg ev.event.quantityMilli price
    omega
  unfold charge
  rw [if_neg hpos]
  apply call
  intro b' _ hgrows
  have hdue' := hdue.grows hgrows
  refine ⟨⟨ev, price, hdue'.1.1, rfl, hamount, hdue'.both⟩, ?_⟩
  intro b'' r _ _ _
  cases r with
  | ok _ => exact fun _ _ _ => trivial
  | error e =>
    dsimp only
    unfold classify
    split
    case h_3 =>
      apply call
      intro b₃ _ _
      exact ⟨trivial, fun _ _ _ _ _ _ _ _ => trivial⟩
    all_goals exact fun _ _ _ => trivial

section
variable (h : b.HasCards samePrice st.cards)
include h

theorem unblock_safe : Safe (bookkeeping samePrice) (Leaves samePrice) (unblock ev st) b := by
  unfold unblock
  split
  · exact leaves_ret _ h
  · apply call
    intro b' _ hgrows
    refine ⟨trivial, ?_⟩
    intro b'' r _ _ hgrows'
    have hcards := h.grows (hgrows.trans hgrows')
    cases r with
    | ok | error => exact leaves_ret _ hcards

/-- The row that is looked up is the event's charge, so the mark is allowed. -/
theorem markCharged_safe (hdue : b.Due samePrice ev price)
    (hprice : ⟨version, ev.currency, ev.event.unit, price⟩ ∈ b.rateCard.rows) :
    Safe (bookkeeping samePrice) (Leaves samePrice) (markCharged now ev version st) b := by
  apply call
  intro b₁ _ hgrows₁
  refine ⟨trivial, ?_⟩
  intro b₂ r hanswer _ hgrows₂
  have hgrows₁₂ := hgrows₁.trans hgrows₂
  match r with
  | .error e => exact error _
  | .ok none => exact leaves_ret _ (h.grows hgrows₁₂)
  | .ok (some id) =>
    obtain ⟨fate, -, hreq⟩ := hanswer
    obtain ⟨rfl, hfound⟩ := Prod.mk.inj (request_ok hreq)
    obtain ⟨t, ht, hid, hkey⟩ := transactionIdForKey_mem (Except.ok.inj hfound)
    apply call
    intro b₃ _ hgrows₃
    have hgrows₁₃ := hgrows₁.trans hgrows₃
    refine ⟨⟨ev, (hdue.grows hgrows₁₃).1.1, rfl, t, hgrows₃.transactions ht, hid, hkey, ?_⟩, ?_⟩
    · intro hsp
      obtain ⟨hat, hquotes⟩ := (hdue.grows hgrows₁).both hsp
      exact ⟨price, hgrows₁₃.rateCard hprice, (hat.charged price hquotes t ht hkey).1⟩
    · intro b₄ r' _ _ hgrows₄
      have hcards := h.grows (hgrows₁₃.trans hgrows₄)
      match r' with
      | .error e => exact leaves_ret _ hcards
      | .ok () => exact unblock_safe hcards

theorem chargeEvent_safe (hdue : b.Due samePrice ev price)
    (hprice : ⟨version, ev.currency, ev.event.unit, price⟩ ∈ b.rateCard.rows)
    (hamount : chargeMinor ev.event.quantityMilli price ≠ 0) :
    Safe (bookkeeping samePrice) (Leaves samePrice)
      (chargeEvent now ev version (chargeMinor ev.event.quantityMilli price) st) b := by
  apply (charge_safe hdue hamount).bind
  intro r b' _ hgrows _
  have hcards := h.grows hgrows
  split
  · exact markCharged_safe now hcards (hdue.grows hgrows) (hgrows.rateCard hprice)
  · exact markCharged_safe now hcards (hdue.grows hgrows) (hgrows.rateCard hprice)
  · apply block_safe
    · exact hcards
    · exact fun _ => rfl
  · exact leaves_ret _ hcards

theorem rateWith_safe (hev : b.Ready samePrice ev)
    (hcard : b.HasCard samePrice ev.currency card) : Safe (bookkeeping samePrice) (Leaves samePrice) (rateWith now ev card st) b := by
  unfold rateWith
  split
  · apply block_safe
    · exact h
    · exact fun _ => rfl
  · rename_i c
    split
    · apply block_safe
      · exact h
      · exact fun _ => rfl
    · rename_i price hprice
      have hdue : b.Due samePrice ev price := ⟨hev, fun hsp => by rw [Books.Quotes, hcard.2 hsp]; exact hprice⟩
      dsimp only
      split
      · rename_i hzero
        exact markZeroRated_safe now c.version h hdue hzero
      · rename_i hamount
        exact chargeEvent_safe now h hdue (hcard.1 c rfl _ price hprice) hamount

theorem rateEvent_safe (hev : b.Ready samePrice ev) :
    Safe (bookkeeping samePrice) (Leaves samePrice) (rateEvent now ev st) b := by
  unfold rateEvent
  split
  · exact leaves_ret _ h
  · apply (loadCard_safe ev.currency h).andThen
    intro loaded b' _ hgrows hloaded
    exact rateWith_safe now hloaded.2 (hev.grows hgrows) hloaded.1

end

theorem rateEvents_safe (pending : List PendingUsage) (h : b.HasCards samePrice st.cards)
    (hpending : ∀ ev ∈ pending, b.Ready samePrice ev) :
    Safe (bookkeeping samePrice) (Returns fun _ _ => True) (rateEvents now pending st) b := by
  induction pending generalizing b st with
  | nil => exact ok fun _ _ _ => trivial
  | cons ev rest ih =>
    apply (rateEvent_safe now h (hpending ev mem_cons_self)).andThen
    intro st' b' _ hgrows hcards
    exact ih hcards fun ev' hev' => (hpending ev' (mem_cons_of_mem _ hev')).grows hgrows

end

theorem ratePending_safe (batch : Int) (now : DateTime) :
    Safe (bookkeeping samePrice) (Returns fun _ _ => True) (ratePending batch now) b := by
  apply call
  intro b₁ _ _
  refine ⟨trivial, ?_⟩
  intro b₂ r _ _ _
  cases r with
  | error e => exact error _
  | ok withoutWallet =>
    apply call
    intro b₃ hkept _
    refine ⟨trivial, ?_⟩
    intro b₄ r' hanswer _ _
    cases r' with
    | error e => exact error _
    | ok pending =>
      obtain ⟨fate, -, hreq⟩ := hanswer
      have hexec : (b₃, b₃.unratedEvents batch) = (b₄, .ok pending) := request_ok hreq
      obtain ⟨rfl, hpending⟩ := Prod.mk.inj hexec
      apply rateEvents_safe now pending
      · intro currency card hget
        simp at hget
      · exact unratedEvents_ready hkept hpending

/-! ## An attempt that does not pay -/

/-- A charge refused for want of funds. -/
def Refused : ((q : Statement) × q.Reply) → Prop
  | ⟨.insertTransaction _, .error e⟩ => e.constraint = some .withinCreditLimit
  | _ => False

/-- A refused charge, or the wallet's place in the queue. -/
def Harmless : ((q : Statement) × q.Reply) → Prop
  | ⟨.blockRating _ _, _⟩ => True
  | x => Refused x

theorem harmless_of_refused {x} (h : Refused x) : Harmless x := by
  obtain ⟨q, r⟩ := x
  cases q with
  | insertTransaction m => exact h
  | _ => exact absurd h id

/-- The money and the usage table are as they were. -/
def Books.SameMoney (b b' : Books) : Prop :=
  b'.transactions = b.transactions ∧ b'.usage = b.usage ∧
    ∀ userId : String, (b'.wallets[userId]?).map WalletRow.balanceMinor = (b.wallets[userId]?).map WalletRow.balanceMinor

theorem setBlocked_sameMoney (b : Books) (userId : String) (blockedAt : Option DateTime) :
    b.SameMoney (b.setBlocked userId blockedAt) := by
  unfold Books.setBlocked
  split
  · exact ⟨rfl, rfl, fun _ => rfl⟩
  · rename_i w hw
    refine ⟨rfl, rfl, ?_⟩
    intro user
    simp only [Table.getElem?_insert]
    split
    · rename_i heq
      rw [← heq, hw]
      rfl
    · rfl

theorem harmless_sameMoney (b : Books) (q : Statement) (fate : Fate) (h : Harmless ⟨q, (b.request q fate).2⟩) :
    b.SameMoney (b.request q fate).1 := by
  cases q with
  | blockRating userId now =>
    rcases request_fst b (.blockRating userId now) fate with heq | heq
    · rw [heq]
      exact ⟨rfl, rfl, fun _ => rfl⟩
    · rw [heq]
      exact setBlocked_sameMoney b userId (some now)
  | insertTransaction m =>
    cases hreq : b.request (.insertTransaction m) fate with
    | mk b' r =>
      cases r with
      | ok u =>
        rw [hreq] at h
        exact absurd h id
      | error e =>
        rw [hreq] at h
        obtain ⟨rfl, -⟩ := insert_error hreq h
        exact ⟨rfl, rfl, fun _ => rfl⟩
  | _ => exact absurd h id

theorem refused_free {b : Books} {m fate}
    (h : Refused ⟨.insertTransaction m, (b.request (.insertTransaction m) fate).2⟩) :
    ∀ t ∈ b.transactions.rows, t.key ≠ m.idempotencyKey := by
  cases hreq : b.request (.insertTransaction m) fate with
  | mk b' r =>
    rw [hreq] at h
    cases r with
    | ok u => exact absurd h id
    | error e => exact (insert_error hreq h).2

theorem block_harmless {userId : String} {α : Type} {f : PassState → α}
    {a : α}
    (path : ((block userId now st).bind fun st => .ret (f st)).Path es a) : ∀ x ∈ es, Harmless x := by
  intro x hx
  have huses : ((block userId now st).bind fun st => (.ret (f st) : Pass α)).Uses (fun q => q = .blockRating userId now) := by
    apply Prog.Uses.bind
    · refine ⟨rfl, ?_⟩
      intro r
      cases r <;> trivial
    · exact fun _ => trivial
  obtain ⟨q, r⟩ := x
  have hq : q = .blockRating userId now := huses.path path ⟨q, r⟩ hx
  subst hq
  trivial

theorem not_refused_of_uses {α : Type} {p : Pass α} (h : p.Uses fun q => ∀ m, q ≠ .insertTransaction m)
    {a} (path : p.Path es a) : ∀ x ∈ es, ¬ Refused x := by
  intro x hx hrefused
  have hq := h.path path x hx
  obtain ⟨q, r⟩ := x
  cases q with
  | insertTransaction m => exact hq m rfl
  | _ => exact hrefused

theorem markZeroRated_uses (now : DateTime) (ev : PendingUsage) (version : Int) (st : PassState) :
    ((markZeroRated now ev version st).bind fun st => (.ret (.ok st) : Pass (Except String PassState))).Uses
      fun q => ∀ m, q ≠ .insertTransaction m := by
  refine ⟨by simp, ?_⟩
  intro r
  cases r <;> trivial

theorem markCharged_uses (now : DateTime) (ev : PendingUsage) (version : Int) (st : PassState) :
    (markCharged now ev version st).Uses fun q => ∀ m, q ≠ .insertTransaction m := by
  refine ⟨by simp, ?_⟩
  intro r
  match r with
  | .error e => trivial
  | .ok none => trivial
  | .ok (some id) =>
    refine ⟨by simp, ?_⟩
    intro r'
    match r' with
    | .error e => trivial
    | .ok () =>
      show (unblock ev st.rated).Uses _
      unfold unblock
      split
      · trivial
      · refine ⟨by simp, ?_⟩
        intro r''
        cases r'' <;> trivial

/-- `InsufficientFunds` is what a refused charge comes back as, and nothing else does. -/
theorem charge_path {userId currency key amount broadcastId r}
    (path : (charge userId currency amount key broadcastId).Path es r) :
    ((∀ x ∈ es, Refused x) ∧ ∃ u n, r = .error (.insufficientFunds u n)) ∨
      ((∀ x ∈ es, ¬ Refused x) ∧ ∀ u n, r ≠ .error (.insufficientFunds u n)) := by
  unfold charge at path
  split at path
  · cases path
    exact .inr ⟨by simp, by simp⟩
  · cases path with
    | call path =>
      rename_i _ reply
      cases reply with
      | ok _ =>
        cases path
        exact .inr ⟨by simp [Refused], by simp⟩
      | error e =>
        dsimp only at path
        unfold classify at path
        split at path
        · rename_i hconstraint
          cases path
          exact .inr ⟨by simp [Refused, hconstraint], by simp⟩
        · rename_i hconstraint
          cases path
          exact .inl ⟨by simp [Refused, hconstraint], _, _, rfl⟩
        · rename_i hconstraint
          cases path with
          | call path =>
            cases path
            refine .inr ⟨by simp [Refused, hconstraint], ?_⟩
            intro u n
            (repeat' split) <;> simp
        · rename_i _ hlimit _
          cases path
          refine .inr ⟨?_, by simp⟩
          simp only [mem_singleton, forall_eq]
          exact fun hrefused => hlimit hrefused

theorem funds_of_treat {r u n}
    (h : treatReplayAsSuccess r = .error (.insufficientFunds u n)) : r = .error (.insufficientFunds u n) := by
  unfold treatReplayAsSuccess at h
  split at h
  · split at h <;> cases h
  · exact h

theorem chargeEvent_harmless {amount : Int}
    {a : Except String PassState}
    (path : (chargeEvent now ev version amount st).Path es a) (hrefused : ∃ x ∈ es, Refused x) : ∀ x ∈ es, Harmless x := by
  obtain ⟨es₁, es₂, r, rfl, hcharge, hrest⟩ := Prog.Path.of_bind path
  rcases charge_path hcharge with ⟨hall, u, n, rfl⟩ | ⟨hnone, hfunds⟩
  · intro x hx
    rcases mem_append.mp hx with hx | hx
    · exact harmless_of_refused (hall x hx)
    · exact block_harmless hrest x hx
  · -- no charge was refused, so nothing after it was either
    obtain ⟨x, hx, hxr⟩ := hrefused
    have hx₂ : x ∈ es₂ := (mem_append.mp hx).resolve_left fun hx₁ => hnone x hx₁ hxr
    exfalso
    split at hrest
    · exact not_refused_of_uses (markCharged_uses ..) hrest x hx₂ hxr
    · exact not_refused_of_uses (markCharged_uses ..) hrest x hx₂ hxr
    · rename_i u n hout
      exact hfunds u n (funds_of_treat hout)
    · cases hrest
      cases hx₂

/-- **An attempt that cannot pay.** With no price in the card, or after a charge was refused
for want of funds, the body of the loop makes no other request than to send the wallet to
the back of the queue. -/
theorem unpaid_attempt
    {a : Except String PassState} (path : (rateWith now ev card st).Path es a)
    (h : priceIn card ev.event.unit = none ∨ ∃ x ∈ es, Refused x) : ∀ x ∈ es, Harmless x := by
  unfold rateWith at path
  split at path
  · exact block_harmless path
  · rename_i c
    split at path
    · exact block_harmless path
    · rename_i price hprice
      -- a card with a price: only the refused charge is left
      have hrefused : ∃ x ∈ es, Refused x := by
        rcases h with hnone | hx
        · have : c.price? ev.event.unit = none := hnone
          rw [hprice] at this
          cases this
        · exact hx
      dsimp only at path
      split at path
      · obtain ⟨x, hx, hxr⟩ := hrefused
        exact absurd hxr (not_refused_of_uses (markZeroRated_uses ..) path x hx)
      · exact chargeEvent_harmless path hrefused

end MatrixMedia.Rating
