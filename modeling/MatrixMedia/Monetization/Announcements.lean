import MatrixMedia.Lib.Budget
import MatrixMedia.Monetization.Lightning

/-!
# How often a donation is announced

Three handlers confirm donations. The Stripe webhook and the preimage proof read the row that
they go on with, and no row can be read: the struct has two fields more than the statements
have columns (`fetchDonation_ne_some`). So neither of them announces or counts anything, and
what is left is `lnbits_webhook`, which keeps no record of what it has seen: a donation is
announced at most as often as LNBits delivers (`announced_at_most_once`), and twice when LNBits
delivers twice (`announced_twice`).
-/

namespace MatrixMedia.Monetization
open Lib Lib.Interaction Api PaymentState
open Std (TreeMap)

variable {cfg : PaymentConfig} {d : String}

/-! ## What is counted -/

/-- The request announces the donation or adds it to the metric. -/
def spendsOn (d : String) : PaymentRequest → Bool
  | .sendDonationEvent _ content _ => content.donationId = d
  | .countDonation id => id = d
  | _ => false

/-- How often the donation was announced or counted. -/
def emissions (d : String) (s : PaymentState) : Nat :=
  (s.announced.countP fun a => a.content.donationId = d) + s.counted.countP fun id => id = d

/-- The job is an LNBits webhook for the donation. -/
def names (cfg : PaymentConfig) (d : String) : PaymentJob → Bool
  | .lnbitsWebhook _ (.ok w) => (CheckoutCompleted.ofPayload cfg w).get "donation_id" = d
  | _ => false

/-- How many LNBits webhooks for the donation were delivered. -/
def deliveries (cfg : PaymentConfig) (d : String) (h : List PaymentPoolEvent) : Nat := budget (fun k => if names cfg d k then 1 else 0) h

theorem emissions_request (d : String) (s : PaymentState) (q : PaymentRequest) (fate : CallFate) :
    emissions d (s.request q fate).1 ≤ emissions d s + if spendsOn d q then 1 else 0 := by
  have heffect := s.request_effect q fate
  generalize (s.request q fate).1 = s' at heffect
  cases heffect with
  | counted =>
    simp only [emissions, spendsOn, List.countP_cons, Nat.add_assoc]
    exact Nat.le_refl _
  | announced =>
    simp only [emissions, spendsOn, List.countP_cons, Nat.add_right_comm]
    exact Nat.le_refl _
  | _ => exact Nat.le_add_right _ _

theorem emissions_move (d : String) (s : PaymentState) (m : PaymentMove) : emissions d (s.move m) ≤ emissions d s := by
  cases m <;> exact Nat.le_refl _

/-! ## What each job spends -/

variable {id : String} {α : Type} {q : PaymentRequest} {n : Nat}

theorem spendsOn_of_plain (h : q.Plain) : spendsOn d q = false := by
  cases q <;> first | rfl | exact h.elim

/-- The jobs that neither announce nor count. -/
theorem spends_of_may {k : PaymentJob} (hk : ∀ q, k.May cfg q → spendsOn d q = false) :
    (k.program cfg).Spends paymentService (spendsOn d) n :=
  Prog.Spends.of_uses ((program_may k).mono hk)

theorem spends_respondWith {f} {p : PaymentHandler α}
    (h : p.Spends paymentService (spendsOn d) n) : (respondWith f p).Spends paymentService (spendsOn d) n :=
  h.bind (m := 0) fun _ => trivial

theorem spends_orRefuse {r} {p : PaymentHandler α}
    (h : p.Spends paymentService (spendsOn d) n) : (orRefuse r p).Spends paymentService (spendsOn d) n := by
  cases r with
  | ok a => exact h
  | error e => trivial

/-- A handler that needs a row it asked for stops. -/
theorem spends_fetch {found : Option (String × Donation)} {fate : CallFate}
    {next : Option (String × Donation) → PaymentHandler α} (hnone : (next none).Spends paymentService (spendsOn d) n) :
    (orDatabase (fate.answer (fetchDonation found)) next).Spends paymentService (spendsOn d) n := by
  cases fate with
  | served =>
    cases hfetch : fetchDonation found with
    | error e => trivial
    | ok row =>
      cases row with
      | none => exact hnone
      | some row => exact absurd hfetch (fetchDonation_ne_some found row)
  | failed | unconfirmed => trivial

theorem submitLightningProof_spends {user preimage : String} :
    (submitLightningProof cfg user id preimage).Spends paymentService (spendsOn d) 0 :=
  spends_orRefuse (Prog.Spends.free rfl fun _ _ => spends_fetch trivial)

theorem handleEvent_spends (event : StripeEvent) : (handleEvent cfg event).Spends paymentService (spendsOn d) 0 := by
  have hinvalidate : ∀ x, (invalidate cfg x).Spends paymentService (spendsOn d) 0 :=
    fun x => Prog.Spends.of_uses (invalidate_plain.mono fun _ => spendsOn_of_plain)
  unfold handleEvent
  split
  · unfold handleCheckoutCompleted
    split
    · unfold handleSubscriptionCheckoutCompleted
      split
      · refine Prog.Spends.free rfl fun s fate => ?_
        generalize (paymentService.request s (.activateSubscription _ _ _) fate).2 = r
        cases r with
        | error e => trivial
        | ok row =>
          cases row with
          | none => trivial
          | some row => exact hinvalidate _
      · trivial
    · exact Prog.Spends.free rfl fun _ _ => spends_fetch trivial
  · trivial
  · unfold handleAccountUpdated
    split
    · exact Prog.Spends.of_uses ⟨rfl, fun r => uses_orError fun _ => trivial⟩
    · trivial
  · trivial
  · unfold handleSubscriptionDeleted
    split
    · refine Prog.Spends.free rfl fun s fate => ?_
      generalize (paymentService.request s (.deleteSubscription _) fate).2 = r
      cases r with
      | error e => trivial
      | ok row =>
        cases row with
        | none => trivial
        | some row => exact hinvalidate _
    · trivial
  · trivial
  · trivial

theorem stripeWebhook_spends (delivery : Delivery) : (stripeWebhook cfg delivery).Spends paymentService (spendsOn d) 0 := by
  refine spends_orRefuse ?_
  split
  · trivial
  split
  · trivial
  split
  · trivial
  refine Prog.Spends.free rfl fun s fate => ?_
  generalize (paymentService.request s (.recordWebhookEvent _ _) fate).2 = r
  cases r with
  | error e => trivial
  | ok isNew =>
    cases isNew with
    | false => trivial
    | true => exact (handleEvent_spends _).bind (m := 0) fun _ => trivial

theorem announce_spends {content verified} :
    (announce content verified).Spends paymentService (spendsOn d) 1 := by
  refine Prog.Spends.free rfl fun s fate => ?_
  split
  · refine Prog.Spends.free rfl fun s fate => ?_
    split
    · refine Prog.Spends.free rfl fun _ _ => Prog.Spends.once fun r => ?_
      cases r with
      | ok a => exact Prog.Spends.of_uses ⟨rfl, fun _ => trivial⟩
      | error e => trivial
    · trivial
  · trivial

/-- A webhook announces at most once. -/
theorem lnbitsWebhook_spends (body : Except String LNBitsWebhookPayload) :
    (lnbitsWebhook cfg body).Spends paymentService (spendsOn d) 1 := by
  unfold lnbitsWebhook
  split
  · trivial
  have hverify : (verifyWebhook cfg body).Spends paymentService (spendsOn d) 0 := by
    unfold verifyWebhook
    split
    · trivial
    split
    · trivial
    refine Prog.Spends.of_uses ⟨rfl, fun r => ?_⟩
    dsimp only
    split <;> trivial
  refine (hverify.bind (m := 1) fun event => ?_).mono (Nat.le_refl 1)
  cases event with
  | error e => trivial
  | ok event =>
    have hsettle : (settleByWebhook cfg event).Spends paymentService (spendsOn d) 0 :=
      Prog.Spends.of_uses (settleByWebhook_uses fun _ _ => rfl)
    have hannounce : (announceByWebhook cfg event).Spends paymentService (spendsOn d) 1 := by
      unfold announceByWebhook
      split
      · exact announce_spends
      · trivial
    refine (hsettle.bind (m := 1) fun _ => ?_).mono (Nat.le_refl 1)
    exact hannounce.bind (m := 0) fun _ => trivial

theorem program_spends (k : PaymentJob) :
    (k.program cfg).Spends paymentService (spendsOn d) (if names cfg d k then 1 else 0) := by
  cases k with
  | lnbitsWebhook n body =>
    split
    · exact spends_respondWith (lnbitsWebhook_spends body)
    · rename_i hnames
      refine spends_of_may fun q hq => ?_
      rcases hq with hplain | ⟨w, rfl, ⟨id, -, rfl⟩ | ⟨room, rfl⟩⟩
      · exact spendsOn_of_plain hplain
      · rfl
      · exact Bool.eq_false_iff.mpr hnames
  | submitLightningProof n user id preimage => exact spends_respondWith submitLightningProof_spends
  | stripeWebhook n delivery => exact spends_respondWith (stripeWebhook_spends delivery)
  | createDonation | createTier | createSubscription | cancelSubscription =>
    refine spends_of_may fun q hq => ?_
    cases hq.asks with
    | plain hplain => exact spendsOn_of_plain hplain
    | _ => rfl

/-! ## Succeeded is for ever -/

def Succeeded (id : String) (s : PaymentState) : Prop := (s.donations[id]?).map Donation.status = some .succeeded

/-- A status that is written is `succeeded`. -/
def Confirms : PaymentRequest → Prop
  | .updateDonationStatus _ status _ => status = .succeeded
  | _ => True

theorem Succeeded.effect {s} (h : Succeeded id s) (hq : Confirms q) (heffect : s.Effect q s') : Succeeded id s' := by
  obtain ⟨row, hrow, hstatus⟩ := Option.map_eq_some_iff.mp h
  unfold Succeeded
  cases heffect with
  | @donated id' row' fresh =>
    dsimp only
    rw [Table.getElem?_insert, if_neg]
    · exact h
    · rintro rfl
      cases fresh.symm.trans hrow
  | @updated session status intent =>
    dsimp only [updateDonations]
    rw [TreeMap.getElem?_map, hrow, Option.map_some, Option.map_some, setStatus]
    split
    · exact congrArg some hq
    · exact congrArg some hstatus
  | settled =>
    dsimp only
    rw [Table.getElem?_modify]
    split
    · rw [hrow]
      rfl
    · exact h
  | _ => exact h

theorem Succeeded.move {s} (h : Succeeded id s) (m : PaymentMove) : Succeeded id (s.move m) := by
  cases m <;> exact h

def staying (id : String) : Discipline paymentService where
  inv := Succeeded id
  rely := fun _ _ => True
  allowed := fun _ q => Confirms q
  admits := fun _ _ _ => True
  moves := fun _ _ => True
  rely_refl := fun _ => trivial
  rely_trans := fun _ _ => trivial
  request_keeps := fun {s q fate} h hq _ => ⟨h.effect hq (s.request_effect q fate), trivial⟩
  move_keeps := fun {_ m} h _ => ⟨h.move m, trivial⟩

theorem confirms_of_plain (h : q.Plain) : Confirms q := by
  cases q <;> trivial

theorem confirms_of_may {k : PaymentJob} (hq : k.May cfg q) : Confirms q := by
  cases hq.asks with
  | plain hplain => exact confirms_of_plain hplain
  | proof => rfl
  | stripe _ hwrites =>
    cases hwrites with
    | update session intent => rfl
    | _ => trivial
  | _ => trivial

/-- **A donation is announced at most once**, when LNBits delivers at most one webhook for it:
in every interleaving, however often Stripe delivers and proofs are submitted, the events sent
to Matrix and the increments of the metric together are at most one. And a donation that
succeeded stays so, however often anybody delivers. -/
theorem announced_at_most_once (cfg : PaymentConfig) (now : Chrono.DateTime) (h₁ : List PaymentPoolEvent) (pool₁ : PaymentPool)
    (run₁ : Run (paymentStep cfg) (fun _ _ _ => True) (.start now) h₁ pool₁) :
    (∀ d, deliveries cfg d h₁ ≤ 1 → emissions d pool₁.state ≤ 1) ∧
    ∀ id h₂ pool₂, Succeeded id pool₁.state → Run (paymentStep cfg) (fun _ _ _ => True) pool₁ h₂ pool₂ → Succeeded id pool₂.state := by
  refine ⟨fun d hd => ?_, fun id h₂ pool₂ hsucceeded run₂ => ?_⟩
  · have hle : emissions d pool₁.state ≤ emissions d (.start now) + deliveries cfg d h₁ :=
      Pool.spent_le program_spends (emissions_request d) (emissions_move d) run₁
    exact hle.trans (by simpa [emissions, start] using hd)
  · have huses : pool₁.Uses fun k q => k.May cfg q := Pool.uses_of_run program_may run₁
    have hallowed : ∀ (k : PaymentJob) s q, k.May cfg q → (staying id).allowed s q := fun _ _ _ hq => confirms_of_may hq
    have hsound : pool₁.Sound (staying id) fun _ _ _ => True :=
      ⟨hsucceeded, fun k p hmem => Safe.of_uses (hallowed k) (huses k p hmem), fun _ _ _ _ _ _ => trivial⟩
    have run₂' : Run (paymentStep cfg) (fun _ pool e => PoolOk (staying id) (fun _ _ => True) pool e) pool₁ h₂ pool₂ :=
      run₂.mono fun _ pool e _ => by
        cases e with
        | request place fate => exact fun _ _ => trivial
        | _ => trivial
    exact (Pool.Sound.run (fun k s _ _ => Safe.of_uses (hallowed k) (program_may k)) hsound run₂').inv

/-! ## On fixed runs -/

instance decidableSucceeded (id : String) (s : PaymentState) : Decidable (Succeeded id s) :=
  inferInstanceAs (Decidable (_ = _))

/-- `@fan`, who paid with Lightning, submits a proof besides. -/
def fanProves : List PaymentPoolEvent := [.start (.submitLightningProof 2 "@fan" d1 "00"), .request 0 .served]

def provedPool : PaymentPool := fanProves.foldl (paymentStep fullPayments) fanPool

theorem fanProves_emissions :
    deliveries fullPayments d1 fanPays.reverse = 1 ∧ emissions d1 fanPool.state = 1 ∧ Succeeded d1 fanPool.state := by
  decide +kernel

theorem announced_once_fan : deliveries fullPayments d1 fanPays.reverse ≤ 1 ∧ emissions d1 fanPool.state ≤ 1 ∧
    Succeeded d1 fanPool.state ∧ Succeeded d1 provedPool.state := by
  obtain ⟨hdeliveries, -, hsucceeded⟩ := fanProves_emissions
  obtain ⟨honce, hstays⟩ := announced_at_most_once fullPayments 0 _ fanPool (Run.free fanPays)
  exact ⟨hdeliveries.le, honce d1 hdeliveries.le, hsucceeded, hstays d1 _ provedPool hsucceeded (Run.free fanProves)⟩

/-- LNBits delivers the webhook again. -/
def fanPaysAgain : List PaymentPoolEvent :=
  fanPays ++ (.start (.lnbitsWebhook 2 (.ok fanPaid)) :: List.replicate 7 (.request 0 .served) : List PaymentPoolEvent)

/-- The same delivery twice makes two events for one donation. -/
theorem announced_twice : ∃ h pool, Run (paymentStep fullPayments) (fun _ _ _ => True) (.start 0) h pool ∧
    pool.state.announced.map (fun a => a.content.donationId) = [d1, d1] :=
  Run.exists_of_follows fanPaysAgain (by decide +kernel)

end MatrixMedia.Monetization
