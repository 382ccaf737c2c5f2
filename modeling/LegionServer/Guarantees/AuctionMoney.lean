import LegionServer.Guarantees.PendingAuctions
import Mathlib.Algebra.BigOperators.Ring.Finset

/-!
# Money in the auction house

The money of the players, of the mails, of the bids and of the deposits taken.
-/
namespace LegionServer.Guarantees.AuctionMoney
open Library Source Source.Auctions List Option FlatSet World Guilds
  Guarantees.PendingAuctions

variable {config : AuctionConfig} {w w' w'' : World} {auction posted : AuctionEntry}
  {thisAH : PlayerAuctions} {player : Player} {amount : UInt64}

/-- The bid on an auction, and what was taken as its deposit. -/
def held (auction : AuctionEntry) : ℤ :=
  auction.bid.toNat + auction.charged.elim 0 fun charged => (charged.toNat : ℤ)

def coins (w : World) : ℤ := w.players.sum fun player => (player.money.toNat : ℤ)

def mailMoney (w : World) : ℤ := (w.mails.map fun mail => (mail.money.toNat : ℤ)).sum

def heldMoney (w : World) : ℤ := w.auctions.sum held

def totalMoney (w : World) : ℤ := coins w + mailMoney w + heldMoney w

/-- A mail about a sale returns no more than the deposit that was taken. -/
def Honest (mail : AuctionMail) : Prop :=
  mail.response = .successful → ∃ charged, mail.charged = some charged ∧ mail.body.deposit ≤ charged

def Sells (config : AuctionConfig) (w : World) : AuctionCall → AuctionEntry → Prop
  | .placeBid guid packet, auction => w.Ends config (.placeBid guid packet) auction
  | .update house curTime, auction =>
    w.Ends config (.update house curTime) auction ∧ ¬(auction.bidder = 0 ∧ auction.bid = 0)
  | _, _ => False

/-- The owner of a batch that is processed now owns its total deposit. -/
def Affordable (config : AuctionConfig) (w : World) (thisAH : PlayerAuctions) : Prop :=
  ∀ player first rest, w.findConnectedPlayer thisAH.player = some player →
    thisAH.auctions.length = thisAH.count →
    w.derefAuctions thisAH.auctions = some (first :: rest) →
    w.batchDeposit config first (first :: rest) ≤ player.money

/-- No auction leaves while it is pending, what is sold has been charged, and only owners who
have the total deposit are charged. -/
structure Charged (config : AuctionConfig) (call : AuctionCall) (w : World) : Prop where
  settled : EndsSettled config call w
  sold : ∀ auction, Sells config w call auction → auction.charged.isSome = true
  affordable : ∀ now, call = .updatePending now →
    ∀ thisAH ∈ w.pending.items, Affordable config w thisAH

structure AuctionOk (auction : AuctionEntry) : Prop where
  paid : ∀ charged, auction.charged = some charged → auction.deposit ≤ charged
  below : auction.buyout = 0 ∨ auction.bid ≤ auction.buyout

structure MoneyOk (w : World) : Prop where
  pending : PendingOk w
  capped : ∀ player ∈ w.players.items, player.money ≤ Guilds.MAX_MONEY_AMOUNT
  auctions : ∀ auction ∈ w.auctions.items, AuctionOk auction
  mails : ∀ mail ∈ w.mails, Honest mail

/-- A step from one good state to another with no more money. -/
def NoMore (w w' : World) : Prop := MoneyOk w' ∧ totalMoney w' ≤ totalMoney w

theorem held_nonneg (auction : AuctionEntry) : 0 ≤ held auction := by
  unfold held
  cases auction.charged with
  | none => simp
  | some charged =>
    rw [elim_some]
    omega

theorem coins_putPlayer (hfind : w.players.find player.guid = some player) (changed : Player)
    (hguid : changed.guid = player.guid) :
    coins (w.putPlayer changed) = coins w - player.money.toNat + changed.money.toNat := by
  rw [coins, putPlayer, sum_put, hguid, FlatSet.value_some hfind, coins]

theorem coins_pay (hfind : w.players.find player.guid = some player)
    (howns : amount ≤ player.money) (hcapped : player.money ≤ Guilds.MAX_MONEY_AMOUNT) :
    coins (w.putPlayer (player.pay amount)) = coins w - amount.toNat := by
  rw [coins_putPlayer hfind (player.pay amount) rfl]
  have hpay := toNat_money_pay howns hcapped
  omega

theorem heldMoney_putAuction (hfind : w.auctions.find auction.id = some posted) :
    heldMoney (w.putAuction auction) = heldMoney w - held posted + held auction := by
  rw [heldMoney, putAuction, sum_put, FlatSet.value_some hfind, heldMoney]

theorem heldMoney_putNew (hfind : w.auctions.find auction.id = none) :
    heldMoney (w.putAuction auction) = heldMoney w + held auction := by
  rw [heldMoney, World.putAuction, sum_put, value_none hfind, heldMoney, sub_zero]

theorem heldMoney_removeAuction (hfind : w.auctions.find auction.id = some posted) :
    heldMoney (w.removeAuction auction.id) = heldMoney w - held posted := by
  rw [heldMoney, World.removeAuction, FlatSet.sum_erase, FlatSet.value_some hfind, heldMoney]

/-- What the cut leaves of a bid and its deposit, also when the sum wraps. -/
theorem profit_le (deposit : UInt64) {bid cut : UInt64} (hcut : cut ≤ bid) :
    (bid + deposit - cut).toNat ≤ bid.toNat + deposit.toNat := by
  rw [UInt64.le_iff_toNat_le] at hcut
  rw [UInt64.toNat_sub, UInt64.toNat_add]
  omega

/-- The mails that a call sends, worth an amount at most. -/
def Sent (worth : ℤ) (w w' : World) : Prop :=
  ∃ mails, w'.mails = w.mails ++ mails ∧ (∀ mail ∈ mails, Honest mail) ∧
    (mails.map fun mail => (mail.money.toNat : ℤ)).sum ≤ worth

variable {worth : ℤ}

theorem Sent.nothing (hworth : 0 ≤ worth) (hmails : w'.mails = w.mails) : Sent worth w w' :=
  ⟨[], by rw [hmails, append_nil], by simp, hworth⟩

theorem Sent.one {mail : AuctionMail} (hmail : Honest mail)
    (hworth : (mail.money.toNat : ℤ) ≤ worth) : Sent worth w (w.sendMailTo mail) :=
  ⟨[mail], rfl, by simpa using hmail, by simpa using hworth⟩

theorem Sent.trans {worth' : ℤ} (h : Sent worth w w') (h' : Sent worth' w' w'') :
    Sent (worth + worth') w w'' := by
  obtain ⟨mails, hmails, hhonest, hsum⟩ := h
  obtain ⟨more, hmore, hhonestMore, hsumMore⟩ := h'
  refine ⟨mails ++ more, ?_, ?_, ?_⟩
  · rw [hmore, hmails, append_assoc]
  · intro mail hmem
    cases mem_append.mp hmem with
    | inl hin => exact hhonest mail hin
    | inr hin => exact hhonestMore mail hin
  · rw [map_append, sum_append]
    omega

theorem Sent.mailMoney_le (h : Sent worth w w') : mailMoney w' ≤ mailMoney w + worth := by
  obtain ⟨mails, hmails, -, hsum⟩ := h
  rw [mailMoney, hmails, map_append, sum_append, mailMoney]
  omega

theorem Sent.honest (h : Sent worth w w') (hmails : ∀ mail ∈ w.mails, Honest mail) :
    ∀ mail ∈ w'.mails, Honest mail := by
  obtain ⟨mails, happend, hhonest, -⟩ := h
  rw [happend]
  intro mail hmem
  cases mem_append.mp hmem with
  | inl hold => exact hmails mail hold
  | inr hnew => exact hhonest mail hnew

section
variable (config : AuctionConfig) (w : World) (auction : AuctionEntry)

theorem sent_won : Sent 0 w (w.sendAuctionWonMail config auction) := by
  unfold sendAuctionWonMail
  cases w.aItems.find auction.itemGUIDLow with
  | none => exact .nothing le_rfl rfl
  | some item =>
    dsimp only
    split
    · exact .one (fun h => by cases h) le_rfl
    · exact .nothing le_rfl rfl

theorem sent_expired : Sent 0 w (w.sendAuctionExpiredMail config auction) := by
  unfold sendAuctionExpiredMail
  cases w.aItems.find auction.itemGUIDLow with
  | none => exact .nothing le_rfl rfl
  | some item =>
    dsimp only
    split
    · exact .one (fun h => by cases h) le_rfl
    · exact .nothing le_rfl rfl

theorem sent_salePending : Sent 0 w (w.sendAuctionSalePendingMail config auction) := by
  unfold sendAuctionSalePendingMail
  split
  · exact .one (fun h => by cases h) le_rfl
  · exact .nothing le_rfl rfl

theorem sent_outbidded : Sent auction.bid.toNat w (w.sendAuctionOutbiddedMail config auction) := by
  unfold sendAuctionOutbiddedMail
  split
  · exact .one (fun h => by cases h) le_rfl
  · exact .nothing (Int.natCast_nonneg _) rfl

theorem sent_cancelledToBidder :
    Sent auction.bid.toNat w (w.sendAuctionCancelledToBidderMail config auction) := by
  unfold sendAuctionCancelledToBidderMail
  split
  · exact .one (fun h => by cases h) le_rfl
  · exact .nothing (Int.natCast_nonneg _) rfl

end

theorem sent_canceled (w : World) (player : Player) (auction : AuctionEntry) (item : Auctions.Item) :
    Sent 0 w (w.sendAuctionCanceledMail player auction item) :=
  .one (fun h => by cases h) le_rfl

theorem sent_successful (w : World) (hcut : config.auctionCut auction ≤ auction.bid) {charged : UInt64}
    (hcharged : auction.charged = some charged) (hpaid : auction.deposit ≤ charged) :
    Sent (held auction) w (w.sendAuctionSuccessfulMail config auction) := by
  unfold sendAuctionSuccessfulMail
  split
  · apply Sent.one
    · intro _
      exact ⟨charged, hcharged, hpaid⟩
    · have hprofit := profit_le auction.deposit hcut
      rw [UInt64.le_iff_toNat_le] at hpaid
      rw [held, hcharged, elim_some]
      dsimp only
      omega
  · exact .nothing (held_nonneg auction) rfl

theorem NoMore.refl (h : MoneyOk w) : NoMore w w := ⟨h, le_rfl⟩

variable {changed : Player}

theorem capped_putPlayer (h : ∀ player ∈ w.players.items, player.money ≤ Guilds.MAX_MONEY_AMOUNT)
    (hless : changed.money ≤ Guilds.MAX_MONEY_AMOUNT) :
    ∀ player ∈ (w.putPlayer changed).players.items, player.money ≤ Guilds.MAX_MONEY_AMOUNT := by
  intro player hmem
  cases mem_put.mp hmem with
  | inl hself =>
    rw [hself]
    exact hless
  | inr hold => exact h player hold.1

theorem money_pay_le (howns : amount ≤ player.money)
    (hcapped : player.money ≤ Guilds.MAX_MONEY_AMOUNT) :
    (player.pay amount).money ≤ Guilds.MAX_MONEY_AMOUNT := by
  have hpay := toNat_money_pay howns hcapped
  rw [UInt64.le_iff_toNat_le] at hcapped ⊢
  omega

theorem auctionOk_putAuction (h : ∀ auction ∈ w.auctions.items, AuctionOk auction)
    (hchanged : AuctionOk posted) :
    ∀ auction ∈ (w.putAuction posted).auctions.items, AuctionOk auction := by
  intro other hmem
  cases mem_put.mp hmem with
  | inl hself =>
    rw [hself]
    exact hchanged
  | inr hold => exact h other hold.1

/-- How a bid or a buyout is paid: the player pays an amount, and a mail is worth another. -/
structure Paid (price refund : ℤ) (w w' : World) : Prop where
  sent : Sent refund w w'
  coins : coins w' = coins w - price
  capped : ∀ player ∈ w'.players.items, player.money ≤ Guilds.MAX_MONEY_AMOUNT
  auctions : w'.auctions = w.auctions
  pending : w'.pending = w.pending
  nextAuctionId : w'.nextAuctionId = w.nextAuctionId

theorem coins_sameBooks (h : w.SameBooks w') : coins w' = coins w := by
  rw [coins, coins, h.players]

variable {refund : ℤ}

theorem MoneyOk.paid (h : MoneyOk w) (hfind : w.players.find player.guid = some player)
    (hbooks : w.SameBooks w') (hsent : Sent refund w w') (howns : amount ≤ player.money) :
    Paid amount.toNat refund w (w'.putPlayer (player.pay amount)) := by
  have hcapped := h.capped player (find_eq_some.mp hfind).1
  have hfind' : w'.players.find player.guid = some player := by
    rw [hbooks.players, hfind]
  obtain ⟨mails, hmails, hhonest, hsum⟩ := hsent
  refine ⟨⟨mails, hmails, hhonest, hsum⟩, ?_, ?_, hbooks.auctions, hbooks.pending,
    hbooks.nextAuctionId⟩
  · rw [coins_pay hfind' howns hcapped, coins_sameBooks hbooks]
  · apply capped_putPlayer
    · rw [hbooks.players]
      exact h.capped
    · exact money_pay_le howns hcapped

theorem toNat_sub_of_le' {a b : UInt64} (h : b ≤ a) : (a - b).toNat = a.toNat - b.toNat :=
  toNat_sub_of_le (UInt64.le_iff_toNat_le.mp h)

theorem MoneyOk.putAuction (h : MoneyOk w) {price refund : ℤ} (hpaid : Paid price refund w w')
    (hauction : w.auctions.find auction.id = some posted) (howner : auction.owner = posted.owner)
    (hok : AuctionOk auction) (hworth : refund + held auction ≤ price + held posted) :
    NoMore w (w'.putAuction auction) := by
  have hput : w'.auctions.find auction.id = some posted := by rw [hpaid.auctions, hauction]
  constructor
  · constructor
    · exact (h.pending.of_books hpaid.auctions hpaid.pending hpaid.nextAuctionId).putAuction hput
        howner
    · exact hpaid.capped
    · apply auctionOk_putAuction _ hok
      rw [hpaid.auctions]
      exact h.auctions
    · exact hpaid.sent.honest h.mails
  · have hmails := hpaid.sent.mailMoney_le
    have hheld := heldMoney_putAuction hput
    have hsame : heldMoney w' = heldMoney w := by rw [heldMoney, heldMoney, hpaid.auctions]
    change coins w' + mailMoney w' + heldMoney (w'.putAuction auction) ≤ _
    rw [hheld, hsame, hpaid.coins, totalMoney]
    omega

theorem MoneyOk.bid (h : MoneyOk w) (hfind : w.players.find player.guid = some player)
    (hauction : w.auctions.find auction.id = some auction) {bidAmount : UInt64}
    (hmore : auction.bid < bidAmount) (howns : bidAmount ≤ player.money)
    (hbelow : World.belowBuyout auction bidAmount = true) :
    NoMore w (w.bid config player auction bidAmount) := by
  have hdifference := toNat_sub_of_le' (UInt64.le_of_lt hmore)
  have hsmaller : bidAmount - auction.bid ≤ player.money := by
    rw [UInt64.le_iff_toNat_le] at howns ⊢
    omega
  have hok : AuctionOk { auction with bidder := player.guid, bid := bidAmount } := by
    refine ⟨(h.auctions auction (find_eq_some.mp hauction).1).paid, ?_⟩
    rw [belowBuyout, Bool.or_eq_true, decide_eq_true_eq, decide_eq_true_eq] at hbelow
    cases hbelow with
    | inl hprice => exact Or.inr (UInt64.le_of_lt hprice)
    | inr hnone => exact Or.inl hnone
  have hheld : held { auction with bidder := player.guid, bid := bidAmount } =
      held auction - auction.bid.toNat + bidAmount.toNat := by
    unfold held
    dsimp only
    omega
  unfold World.bid
  split
  · split
    · have hpaid := h.paid hfind .rfl (.nothing le_rfl rfl) hsmaller
      exact h.putAuction hpaid hauction rfl hok (by omega)
    · have hpaid := h.paid hfind sameBooks_outbidded (sent_outbidded config w auction) howns
      exact h.putAuction hpaid hauction rfl hok (by omega)
  · have hpaid := h.paid hfind .rfl (.nothing le_rfl rfl) howns
    exact h.putAuction hpaid hauction rfl hok (by omega)

theorem MoneyOk.unpaid (h : MoneyOk w) : Paid 0 0 w w :=
  ⟨.nothing le_rfl rfl, by rw [sub_zero], h.capped, rfl, rfl, rfl⟩

theorem Paid.mail {price : ℤ} (h : Paid price refund w w') (hbooks : w'.SameBooks w'')
    (hsent : Sent worth w' w'') : Paid price (refund + worth) w w'' where
  sent := h.sent.trans hsent
  coins := by rw [coins_sameBooks hbooks, h.coins]
  capped := by
    rw [hbooks.players]
    exact h.capped
  auctions := hbooks.auctions.trans h.auctions
  pending := hbooks.pending.trans h.pending
  nextAuctionId := hbooks.nextAuctionId.trans h.nextAuctionId

theorem MoneyOk.removeAuction (h : MoneyOk w) {price refund : ℤ} (hpaid : Paid price refund w w')
    (hposted : w.auctions.find auction.id = some posted) (hsettled : ¬IsPending w auction.id)
    (hworth : refund ≤ price + held posted) : NoMore w (w'.removeAuction auction.id) := by
  constructor
  · constructor
    · apply (h.pending.of_books hpaid.auctions hpaid.pending hpaid.nextAuctionId).removeAuction
      rw [IsPending, hpaid.pending]
      exact hsettled
    · exact hpaid.capped
    · intro other hother
      change other ∈ (w'.auctions.erase auction.id).items at hother
      rw [hpaid.auctions] at hother
      exact h.auctions other (mem_erase.mp hother).1
    · exact hpaid.sent.honest h.mails
  · have hmails := hpaid.sent.mailMoney_le
    have hfind : w'.auctions.find auction.id = some posted := by rw [hpaid.auctions, hposted]
    have hheld := heldMoney_removeAuction hfind
    have hsame : heldMoney w' = heldMoney w := by rw [heldMoney, heldMoney, hpaid.auctions]
    change coins w' + mailMoney w' + heldMoney (w'.removeAuction auction.id) ≤ _
    rw [hheld, hsame, hpaid.coins, totalMoney]
    omega

theorem MoneyOk.endUnsold (h : MoneyOk w) (hmem : auction ∈ w.auctions.items)
    (hsettled : ¬IsPending w auction.id) : NoMore w (w.endUnsold config auction) := by
  have hmail := h.unpaid.mail sameBooks_expired (sent_expired config w auction)
  have hremoved := hmail.mail (sameBooks_removeAItem auction.itemGUIDLow) (.nothing le_rfl rfl)
  apply h.removeAuction hremoved (find_key hmem) hsettled
  have hheld := held_nonneg auction
  omega

theorem MoneyOk.endSold (h : MoneyOk w) {price refund : ℤ} (hpaid : Paid price refund w w')
    (hposted : w.auctions.find auction.id = some posted) (hsettled : ¬IsPending w auction.id)
    (hcut : config.auctionCut auction ≤ auction.bid) {charged : UInt64}
    (hcharged : auction.charged = some charged) (hdeposit : auction.deposit ≤ charged)
    (hworth : refund + held auction ≤ price + held posted) :
    NoMore w (w'.endSold config auction) := by
  have hsuccessful := hpaid.mail sameBooks_successful (sent_successful w' hcut hcharged hdeposit)
  have hwon := hsuccessful.mail sameBooks_won (sent_won config _ auction)
  have hremoved := hwon.mail (sameBooks_removeAItem auction.itemGUIDLow) (.nothing le_rfl rfl)
  apply h.removeAuction hremoved hposted hsettled
  omega

theorem MoneyOk.buyout (h : MoneyOk w) (hfind : w.players.find player.guid = some player)
    (hauction : w.auctions.find auction.id = some auction) (hsettled : ¬IsPending w auction.id)
    (hcut : ∀ auction, config.auctionCut auction ≤ auction.bid)
    (howns : auction.buyout ≤ player.money) (hprice : auction.bid ≤ auction.buyout)
    (hsold : auction.charged.isSome = true) :
    NoMore w (w.buyout config player auction) := by
  obtain ⟨charged, hcharged⟩ := isSome_iff_exists.mp hsold
  have hok := h.auctions auction (find_eq_some.mp hauction).1
  have hdifference := toNat_sub_of_le' hprice
  have hsmaller : auction.buyout - auction.bid ≤ player.money := by
    rw [UInt64.le_iff_toNat_le] at howns ⊢
    omega
  have hheld : held (auction.boughtBy player.guid) =
      held auction - auction.bid.toNat + auction.buyout.toNat := by
    unfold held AuctionEntry.boughtBy
    dsimp only
    omega
  -- The buyer pays the price, and the last bidder, if another, gets the bid back.
  have hpaid : ∃ price refund, Paid price refund w (w.payBuyout config player auction) ∧
      refund + auction.buyout.toNat ≤ price + auction.bid.toNat := by
    unfold payBuyout
    split
    · exact ⟨_, 0, h.paid hfind .rfl (.nothing le_rfl rfl) hsmaller, by omega⟩
    have hpaid := h.paid hfind .rfl (.nothing le_rfl rfl) howns
    split
    · exact ⟨_, _, hpaid.mail sameBooks_outbidded (sent_outbidded config _ auction), by omega⟩
    · exact ⟨_, 0, hpaid, by omega⟩
  obtain ⟨price, refund, hpaid, hworth⟩ := hpaid
  have hpending := hpaid.mail sameBooks_salePending
    (sent_salePending config _ (auction.boughtBy player.guid))
  have hposted : w.auctions.find (auction.boughtBy player.guid).id = some auction := hauction
  have htaken : (auction.boughtBy player.guid).charged = some charged := hcharged
  apply h.endSold hpending hposted hsettled (hcut _) htaken (hok.paid charged hcharged)
  omega

theorem MoneyOk.handleAuctionPlaceBid (h : MoneyOk w) (guid : Nat) (packet : AuctionPlaceBid)
    (hcut : ∀ auction, config.auctionCut auction ≤ auction.bid)
    (hcharged : Charged config (.placeBid guid packet) w) :
    NoMore w (w.handleAuctionPlaceBid config guid packet).1 := by
  apply handleAuctionPlaceBid_cases (motive := NoMore w) (.refl h)
  · intro player auction hfind hauction hmore howns hbelow
    exact h.bid hfind hauction hmore howns hbelow
  · intro player auction hfind _ hauction hbuyout howns hends
    have hok := h.auctions auction (find_eq_some.mp hauction).1
    exact h.buyout hfind hauction (hcharged.settled auction hends) hcut howns
      (hok.below.resolve_left hbuyout) (hcharged.sold auction hends)

theorem MoneyOk.handleAuctionRemoveItem (h : MoneyOk w) (guid : Nat) (packet : AuctionRemoveItem)
    (hcharged : Charged config (.removeItem guid packet) w) :
    NoMore w (w.handleAuctionRemoveItem config guid packet).1 := by
  apply handleAuctionRemoveItem_cases (motive := NoMore w) (.refl h)
  intro player auction item hfind hauction _ howns hends
  have hpaid : ∃ price refund, Paid price refund w (w.payCancel config player auction) ∧
      refund ≤ price + held auction := by
    have hheld : (auction.bid.toNat : ℤ) ≤ held auction := by
      unfold held
      cases auction.charged <;> simp
    unfold payCancel
    split
    · rename_i hbidder
      exact ⟨_, _, h.paid hfind sameBooks_cancelledToBidder
        (sent_cancelledToBidder config w auction) (howns hbidder), by omega⟩
    · exact ⟨0, 0, h.unpaid, by omega⟩
  obtain ⟨price, refund, hpaid, hworth⟩ := hpaid
  have hmail := hpaid.mail (sameBooks_sendMailTo _) (sent_canceled _ player auction item)
  have hremoved := hmail.mail (sameBooks_removeAItem auction.itemGUIDLow) (.nothing le_rfl rfl)
  apply h.removeAuction hremoved hauction (hcharged.settled auction hends)
  omega

theorem find_nextAuctionId (h : PendingOk w) : w.auctions.find w.nextAuctionId = none := by
  rw [find_eq_none]
  intro auction hmem
  have hless := h.fresh auction hmem
  omega

theorem pendingAuctionAdd_eq (w : World) (player id : Nat) :
    w.pendingAuctionAdd player id =
      { w with pending := (w.pendingAuctionAdd player id).pending } := by
  unfold pendingAuctionAdd
  cases w.pending.find player <;> rfl

theorem MoneyOk.addPosted (h : MoneyOk w) (config : AuctionConfig) (player : Player)
    (packet : AuctionSellItem) (posting : Posting) (item : Auctions.Item) (now : Nat) :
    NoMore w (w.addPosted config player packet posting item now) := by
  have hpending := h.pending.addPosted config player packet posting item now
  unfold World.addPosted at hpending ⊢
  rw [pendingAuctionAdd_eq] at hpending ⊢
  constructor
  · refine ⟨hpending, h.capped, ?_, h.mails⟩
    apply auctionOk_putAuction (w := { w with nextAuctionId := w.nextAuctionId + 1 })
    · exact h.auctions
    · refine ⟨fun _ hcharged => ?_, Or.inr UInt64.zero_le⟩
      cases hcharged
  · apply le_of_eq
    change coins w + mailMoney w + heldMoney (World.putAuction { w with
      nextAuctionId := w.nextAuctionId + 1, aItems := w.aItems.put item } _) = _
    rw [heldMoney_putNew (find_nextAuctionId h.pending)]
    simp [totalMoney, held, heldMoney]

theorem NoMore.putItems {start : World} (h : NoMore start w)
    (hfind : w.players.find player.guid = some player) (items : FlatSet Auctions.Item.guid) :
    NoMore start (w.putPlayer { player with items }) := by
  obtain ⟨hok, hless⟩ := h
  constructor
  · refine ⟨hok.pending.putPlayer _, ?_, hok.auctions, hok.mails⟩
    apply capped_putPlayer hok.capped
    exact hok.capped player (find_eq_some.mp hfind).1
  · have hcoins := coins_putPlayer hfind { player with items } rfl
    change coins (w.putPlayer { player with items }) + mailMoney w + heldMoney w ≤ _
    rw [hcoins]
    unfold totalMoney at hless ⊢
    dsimp only
    omega

theorem players_addPosted (packet : AuctionSellItem) (posting : Posting) (item : Auctions.Item)
    (now : Nat) : (w.addPosted config player packet posting item now).players = w.players := by
  unfold World.addPosted
  rw [pendingAuctionAdd_eq]
  rfl

theorem MoneyOk.handleAuctionSellItem (h : MoneyOk w) (guid : Nat) (packet : AuctionSellItem)
    (now : Nat) : NoMore w (w.handleAuctionSellItem config guid packet now).1 := by
  apply handleAuctionSellItem_cases (motive := NoMore w) (.refl h)
  · intro player posting hfind _
    apply NoMore.putItems (h.addPosted config player packet posting _ now)
    rw [players_addPosted, hfind]
  · intro player posting hfind _
    -- The clone only takes a guid.
    have hcloned : MoneyOk { w with nextItemGuid := w.nextItemGuid + 1 } :=
      ⟨h.pending.of_books rfl rfl rfl, h.capped, h.auctions, h.mails⟩
    obtain ⟨hok, hless⟩ := hcloned.addPosted config player packet posting _ now
    apply NoMore.putItems ⟨hok, hless⟩
    rw [players_addPosted, hfind]

theorem NoMore.trans {start : World} (h : NoMore start w) (h' : NoMore w w') : NoMore start w' :=
  ⟨h'.1, h'.2.trans h.2⟩

theorem find_updateAuction (curTime : Nat) {id : Nat} (hid : id ≠ auction.id) :
    (w.updateAuction config curTime auction).auctions.find id = w.auctions.find id := by
  obtain hsame | ⟨ended, hbooks, hend⟩ := updateAuction_eq config w curTime auction
  · rw [hsame]
  · rw [hend, removeAuction, find_erase, if_neg hid, hbooks.auctions]

theorem MoneyOk.updateAuctions {curTime : Nat} {auctions : List AuctionEntry}
    (hcut : ∀ auction, config.auctionCut auction ≤ auction.bid) (h : MoneyOk w)
    (hnodup : (auctions.map AuctionEntry.id).Nodup)
    (hfind : ∀ auction ∈ auctions, w.auctions.find auction.id = some auction)
    (hsettled : ∀ auction ∈ auctions, auction.expireTime ≤ curTime + 60 → ¬IsPending w auction.id)
    (hsold : ∀ auction ∈ auctions, auction.expireTime ≤ curTime + 60 →
      ¬(auction.bidder = 0 ∧ auction.bid = 0) → auction.charged.isSome = true) :
    NoMore w (auctions.foldl (fun w auction => w.updateAuction config curTime auction) w) := by
  induction auctions generalizing w with
  | nil => exact .refl h
  | cons auction rest ih =>
    rw [map_cons, nodup_cons] at hnodup
    have hposted := hfind auction mem_cons_self
    have hturn : NoMore w (w.updateAuction config curTime auction) := by
      unfold updateAuction
      split
      · exact .refl h
      rename_i hexpired
      have hself := hsettled auction mem_cons_self (by omega)
      split
      · exact h.endUnsold (find_eq_some.mp hposted).1 hself
      rename_i hbid
      obtain ⟨charged, hcharged⟩ := isSome_iff_exists.mp
        (hsold auction mem_cons_self (by omega) hbid)
      have hok := h.auctions auction (find_eq_some.mp hposted).1
      exact h.endSold h.unpaid hposted hself (hcut auction) hcharged
        (hok.paid charged hcharged) le_rfl
    apply hturn.trans
    apply ih hturn.1 hnodup.2
    · intro other hother
      rw [find_updateAuction]
      · exact hfind other (mem_cons_of_mem auction hother)
      · intro hsame
        apply hnodup.1
        rw [← hsame]
        exact mem_map_of_mem hother
    · intro other hother hexpired
      rw [IsPending, pending_updateAuction]
      exact hsettled other (mem_cons_of_mem auction hother) hexpired
    · exact fun other hother => hsold other (mem_cons_of_mem auction hother)

theorem MoneyOk.updateHouse (h : MoneyOk w) (house : House) (curTime : Nat)
    (hcut : ∀ auction, config.auctionCut auction ≤ auction.bid)
    (hcharged : Charged config (.update house curTime) w) :
    NoMore w (w.updateHouse config house curTime) := by
  have hends : ∀ auction ∈ w.auctions.items.filter (fun auction => auction.house = house),
      auction.expireTime ≤ curTime + 60 → w.Ends config (.update house curTime) auction := by
    intro auction hmem hexpired
    obtain ⟨hauction, hhouse⟩ := mem_filter.mp hmem
    exact ⟨hauction, of_decide_eq_true hhouse, hexpired⟩
  apply h.updateAuctions hcut
  · exact w.auctions.keys_nodup.sublist (filter_sublist.map _)
  · exact fun auction hmem => find_key (mem_filter.mp hmem).1
  · exact fun auction hmem hexpired => hcharged.settled auction (hends auction hmem hexpired)
  · exact fun auction hmem hexpired hbid =>
      hcharged.sold auction ⟨hends auction hmem hexpired, hbid⟩

section Batches

variable {auctions : List AuctionEntry}

theorem recordCharges_all : ∀ taken : UInt64,
    (auctions.map fun auction => auction.deposit.toNat).sum = taken.toNat →
    World.recordCharges taken auctions =
      auctions.map fun auction => { auction with charged := some auction.deposit } := by
  induction auctions with
  | nil => intro _ _; rfl
  | cons auction rest ih =>
    intro taken hsum
    rw [map_cons, sum_cons] at hsum
    have hless : auction.deposit ≤ taken := by
      rw [UInt64.le_iff_toNat_le]
      omega
    have hmin : min auction.deposit taken = auction.deposit := if_pos hless
    have hrest := toNat_sub_of_le' hless
    rw [World.recordCharges, hmin, ih _ (by omega), map_cons]

theorem heldMoney_putAuctions (taken : AuctionEntry → ℤ)
    (h : ∀ auction ∈ auctions, ∃ posted, w.auctions.find auction.id = some posted ∧
      held auction ≤ held posted + taken auction)
    (hnodup : (auctions.map AuctionEntry.id).Nodup) :
    heldMoney (w.putAuctions auctions) ≤ heldMoney w + (auctions.map taken).sum := by
  induction auctions generalizing w with
  | nil => simp
  | cons auction rest ih =>
    rw [map_cons, nodup_cons] at hnodup
    obtain ⟨posted, hfind, hheld⟩ := h auction mem_cons_self
    have hput := heldMoney_putAuction hfind
    have hrest := ih (w := w.putAuction auction) (fun other hother => by
      obtain ⟨found, hfound, hmore⟩ := h other (mem_cons_of_mem auction hother)
      refine ⟨found, ?_, hmore⟩
      rw [putAuction, find_put, if_neg, hfound]
      intro hsame
      apply hnodup.1
      rw [← hsame]
      exact mem_map_of_mem hother) hnodup.2
    rw [putAuctions_cons, map_cons, sum_cons]
    omega

theorem auctionOk_putAuctions (h : ∀ auction ∈ w.auctions.items, AuctionOk auction)
    (hall : ∀ auction ∈ auctions, AuctionOk auction) :
    ∀ auction ∈ (w.putAuctions auctions).auctions.items, AuctionOk auction := by
  induction auctions generalizing w with
  | nil => exact h
  | cons auction rest ih =>
    apply ih (auctionOk_putAuction h (hall auction mem_cons_self))
    exact fun other hother => hall other (mem_cons_of_mem auction hother)

/-- No money comes up where the deposit is affordable. -/
theorem MoneyOk.pendingAuctionProcess (h : MoneyOk w) (hthis : thisAH ∈ w.pending.items)
    (hplayer : w.findConnectedPlayer thisAH.player = some player)
    (haffordable : ∀ first rest, w.derefAuctions thisAH.auctions = some (first :: rest) →
      w.batchDeposit config first (first :: rest) ≤ player.money)
    (hprocess : w.pendingAuctionProcess config player = some w') : NoMore w w' := by
  obtain ⟨hfindPlayer, hguid⟩ := findConnectedPlayer_eq_some hplayer
  have hcapped := h.capped player (find_eq_some.mp hfindPlayer).1
  obtain ⟨done, _, hdone, hok, -⟩ := pendingAuctionProcess_spec config h.pending hthis hguid
  rw [hprocess, Option.some.injEq] at hdone
  subst hdone
  obtain ⟨auctions, hderef, hids, hall⟩ := derefAuctions_live (h.pending.live thisAH hthis)
  have hfind : w.pending.find player.guid = some thisAH := by
    rw [hguid]
    exact find_key hthis
  have hsome : auctions ≠ [] := by
    intro hnil
    rw [hnil] at hids
    exact h.pending.some_pending thisAH hthis hids.symm
  obtain ⟨first, rest, hauctions⟩ := exists_cons_of_ne_nil hsome
  have howns := haffordable first rest (by rw [hderef, hauctions])
  unfold World.pendingAuctionProcess at hprocess
  rw [hfind] at hprocess
  dsimp only at hprocess
  rw [hderef, hauctions] at hprocess
  dsimp only at hprocess
  rw [← hauctions] at hprocess howns
  generalize w.batchDeposit config first auctions = totaldeposit at hprocess howns
  generalize hassigned : assignDeposits
    (UInt64.ofNat (totaldeposit.toNat / auctions.length)) totaldeposit auctions = assigned
    at hprocess
  have hpay := toNat_money_pay howns hcapped
  have htaken : player.money - (player.pay totaldeposit).money = totaldeposit := by
    apply UInt64.toNat_inj.mp
    rw [toNat_sub_of_le (by omega)]
    omega
  have hsum : (assigned.map fun auction => auction.deposit.toNat).sum = totaldeposit.toNat := by
    rw [← hassigned]
    exact sum_deposits hsome totaldeposit
  rw [htaken, recordCharges_all totaldeposit hsum] at hprocess
  have hposted : ∀ auction ∈ assigned, ∃ posted ∈ auctions, ∃ deposit,
      auction = { posted with deposit } := by
    rw [← hassigned]
    exact fun auction => mem_assignDeposits _
  generalize hwritten : (assigned.map fun auction => { auction with charged := some auction.deposit })
    = written at hprocess
  have hnodup : (written.map AuctionEntry.id).Nodup := by
    have hsame : written.map AuctionEntry.id = thisAH.auctions := by
      rw [← hwritten, List.map_map, ← hids, ← map_id_assignDeposits, hassigned]
      rfl
    rw [hsame]
    exact h.pending.once thisAH hthis
  have hheld := heldMoney_putAuctions (fun auction => (auction.deposit.toNat : ℤ)) (by
      intro auction hmem
      rw [← hwritten] at hmem
      obtain ⟨before, hbefore, hsame⟩ := mem_map.mp hmem
      obtain ⟨posted, hin, deposit, hdeposit⟩ := hposted before hbefore
      refine ⟨posted, ?_, ?_⟩
      · rw [← hsame, hdeposit]
        exact (hall posted hin).1
      · have hnonneg := held_nonneg { posted with bid := 0 }
        rw [← hsame, hdeposit]
        unfold held at hnonneg ⊢
        simp at hnonneg ⊢
        omega) hnodup
  have hshares : (written.map fun auction => (auction.deposit.toNat : ℤ)).sum =
      totaldeposit.toNat := by
    rw [← hsum, Nat.cast_list_sum, List.map_map, ← hwritten, List.map_map]
    rfl
  cases hprocess
  constructor
  · refine ⟨hok, ?_, ?_, ?_⟩
    · apply capped_putPlayer (w := { w.putAuctions written with
        pending := w.pending.erase player.guid })
      · rw [putAuctions_eq]
        exact h.capped
      · exact money_pay_le howns hcapped
    · change ∀ auction ∈ (w.putAuctions written).auctions.items, AuctionOk auction
      apply auctionOk_putAuctions h.auctions
      intro auction hmem
      rw [← hwritten] at hmem
      obtain ⟨before, hbefore, hsame⟩ := mem_map.mp hmem
      obtain ⟨posted, hin, deposit, hdeposit⟩ := hposted before hbefore
      have hbelow := (h.auctions posted (find_eq_some.mp (hall posted hin).1).1).below
      rw [← hsame, hdeposit]
      refine ⟨?_, hbelow⟩
      intro charged hcharged
      rw [Option.some.injEq] at hcharged
      rw [← hcharged]
      exact UInt64.le_refl _
    · rw [putAuctions_eq]
      exact h.mails
  · have hcoins : coins ((w.putAuctions written).putPlayer (player.pay totaldeposit)) =
        coins w - totaldeposit.toNat := by
      rw [coins_pay _ howns hcapped, putAuctions_eq]
      · rfl
      · rw [putAuctions_eq]
        exact hfindPlayer
    have hmails : mailMoney (w.putAuctions written) = mailMoney w := by
      rw [putAuctions_eq]
      rfl
    change coins ((w.putAuctions written).putPlayer (player.pay totaldeposit)) +
      mailMoney (w.putAuctions written) + heldMoney (w.putAuctions written) ≤ _
    rw [hcoins, hmails, totalMoney]
    omega

theorem MoneyOk.expirePending (h : MoneyOk w) (hthis : thisAH ∈ w.pending.items) (now : Nat)
    (hexpire : w.expirePending thisAH now = some w') : NoMore w w' := by
  obtain ⟨done, hdone, hok, -⟩ := expirePending_spec h.pending hthis now
  rw [hexpire, Option.some.injEq] at hdone
  subst hdone
  obtain ⟨auctions, hderef, hids, hall⟩ := derefAuctions_live (h.pending.live thisAH hthis)
  unfold World.expirePending at hexpire
  rw [hderef] at hexpire
  dsimp only at hexpire
  generalize hexpired : (auctions.map fun auction => { auction with expireTime := now }) = expired
    at hexpire
  have hposted : ∀ auction ∈ expired, ∃ posted ∈ auctions,
      { posted with expireTime := now } = auction := by
    rw [← hexpired]
    exact fun auction => mem_map.mp
  have hnodup : (expired.map AuctionEntry.id).Nodup := by
    have hsame : expired.map AuctionEntry.id = thisAH.auctions := by
      rw [← hexpired, List.map_map, ← hids]
      rfl
    rw [hsame]
    exact h.pending.once thisAH hthis
  have hheld := heldMoney_putAuctions (w := w) (fun _ => 0) (by
    intro auction hmem
    obtain ⟨posted, hin, hsame⟩ := hposted auction hmem
    refine ⟨posted, ?_, ?_⟩
    · rw [← hsame]
      exact (hall posted hin).1
    · rw [← hsame, add_zero]
      exact le_rfl) hnodup
  cases hexpire
  constructor
  · refine ⟨hok, ?_, ?_, ?_⟩
    · rw [putAuctions_eq]
      exact h.capped
    · change ∀ auction ∈ (w.putAuctions expired).auctions.items, AuctionOk auction
      apply auctionOk_putAuctions h.auctions
      intro auction hmem
      obtain ⟨posted, hin, hsame⟩ := hposted auction hmem
      have hbefore := h.auctions posted (find_eq_some.mp (hall posted hin).1).1
      rw [← hsame]
      exact ⟨hbefore.paid, hbefore.below⟩
    · rw [putAuctions_eq]
      exact h.mails
  · have hcoins : coins (w.putAuctions expired) = coins w := by
      rw [putAuctions_eq]
      rfl
    have hmails : mailMoney (w.putAuctions expired) = mailMoney w := by
      rw [putAuctions_eq]
      rfl
    have hnothing : (expired.map fun _ => (0 : ℤ)).sum = 0 := by simp
    change coins (w.putAuctions expired) + mailMoney (w.putAuctions expired) +
      heldMoney (w.putAuctions expired) ≤ _
    rw [hcoins, hmails, totalMoney]
    omega

theorem MoneyOk.updatePendingOf (h : MoneyOk w) (hthis : thisAH ∈ w.pending.items) (now : Nat)
    (haffordable : Affordable config w thisAH)
    (hturn : w.updatePendingOf config now thisAH = some w') : NoMore w w' := by
  obtain ⟨done, hdone, hok, -⟩ := updatePendingOf_spec config h.pending hthis now
  rw [hturn, Option.some.injEq] at hdone
  subst hdone
  unfold World.updatePendingOf at hturn
  cases hplayer : w.findConnectedPlayer thisAH.player with
  | none =>
    rw [hplayer] at hturn
    exact h.expirePending hthis now hturn
  | some player =>
    rw [hplayer] at hturn
    dsimp only at hturn
    split at hturn
    · rename_i hcount
      exact h.pendingAuctionProcess hthis hplayer
        (fun first rest hderef => haffordable player first rest hplayer hcount hderef) hturn
    · cases hturn
      exact ⟨⟨hok, h.capped, h.auctions, h.mails⟩, le_rfl⟩

end Batches

theorem derefAuctions_congr {ids : List Nat}
    (h : ∀ id ∈ ids, w'.auctions.find id = w.auctions.find id) :
    w'.derefAuctions ids = w.derefAuctions ids := by
  unfold derefAuctions
  induction ids with
  | nil => rfl
  | cons id rest ih =>
    rw [mapM_cons, mapM_cons, h id mem_cons_self,
      ih fun other hother => h other (mem_cons_of_mem id hother)]

theorem Affordable.others {other : PlayerAuctions} (h : Affordable config w other)
    (hok : PendingOk w) (hkept : OthersKept thisAH w w') (hthis : thisAH ∈ w.pending.items)
    (hother : other ∈ w.pending.items) (hne : other.player ≠ thisAH.player) :
    Affordable config w' other := by
  have hapart : ∀ id ∈ other.auctions, id ∉ thisAH.auctions := by
    intro id hid hin
    obtain ⟨auction, hfind, howner⟩ := hok.live other hother id hid
    obtain ⟨found, hfound, hfoundOwner⟩ := hok.live thisAH hthis id hin
    rw [hfind, Option.some.injEq] at hfound
    rw [← howner, ← hfoundOwner, hfound] at hne
    exact hne rfl
  intro player first rest hplayer hcount hderef
  rw [findConnectedPlayer, hkept.players _ hne] at hplayer
  rw [derefAuctions_congr fun id hid => hkept.auctions id (hapart id hid)] at hderef
  rw [batchDeposit, hkept.aItems]
  exact h player first rest hplayer hcount hderef

theorem MoneyOk.updatePendingAuctions (h : MoneyOk w) (now : Nat)
    (hcharged : Charged config (.updatePending now) w)
    (hrun : w.updatePendingAuctions config now = some w') : NoMore w w' := by
  obtain ⟨done, hdone, -, hresult⟩ := updatePending_induction config now (motive := NoMore w)
    (Affordable config) w.pending.items
    (fun before after thisAH _ hthis haffordable hstart hturn =>
      hstart.trans (hstart.1.updatePendingOf hthis now haffordable hturn))
    (fun before after thisAH other hok hkept hthis hother hne haffordable =>
      haffordable.others hok hkept hthis hother hne)
    h.pending (fun _ hmem => hmem) w.pending.keys_nodup (hcharged.affordable now rfl) (.refl h)
  change w.pending.items.foldlM _ w = some w' at hrun
  rw [hdone, Option.some.injEq] at hrun
  rw [← hrun]
  exact hresult

theorem NoMore.putPoorer (h : MoneyOk w) (hfind : w.players.find player.guid = some player)
    (hguid : changed.guid = player.guid) (hless : changed.money ≤ player.money) :
    NoMore w (w.putPlayer changed) := by
  have hcapped := h.capped player (find_eq_some.mp hfind).1
  constructor
  · exact ⟨h.pending.putPlayer _, capped_putPlayer h.capped (UInt64.le_trans hless hcapped),
      h.auctions, h.mails⟩
  · have hcoins := coins_putPlayer hfind changed hguid
    rw [UInt64.le_iff_toNat_le] at hless
    change coins (w.putPlayer changed) + mailMoney w + heldMoney w ≤ _
    rw [hcoins, totalMoney]
    omega

theorem noMore_call (hcut : ∀ auction, config.auctionCut auction ≤ auction.bid) (h : MoneyOk w)
    (call : AuctionCall) (hcharged : Charged config call w)
    (hcall : w.call config call = some w') : NoMore w w' := by
  have hplayer : ∀ {guid}, _ → NoMore w w' := fun {guid} hplayer =>
    @call_player config w w' _ guid call hplayer hcall (.refl h) fun _ _ hfind hguid _ hmoney =>
      NoMore.putPoorer h hfind hguid hmoney
  cases call with
  | sellItem player packet now =>
    cases hcall
    exact h.handleAuctionSellItem player packet now
  | placeBid player packet =>
    cases hcall
    exact h.handleAuctionPlaceBid player packet hcut hcharged
  | removeItem player packet =>
    cases hcall
    exact h.handleAuctionRemoveItem player packet hcharged
  | update house curTime =>
    cases hcall
    exact h.updateHouse house curTime hcut hcharged
  | updatePending now => exact h.updatePendingAuctions now hcharged hcall
  | spend player amount => exact hplayer (.inl ⟨amount, rfl⟩)
  | login player => exact hplayer (.inr (.inl rfl))
  | logout player => exact hplayer (.inr (.inr rfl))

theorem moneyOk_opening (h : w.Opening) : MoneyOk w where
  pending := pendingOk_opening h
  capped := h.money
  auctions := by simp [h.auctions]
  mails := by simp [h.mails]

theorem moneyOk_reachable (hcut : ∀ auction, config.auctionCut auction ≤ auction.bid)
    (h : ((auctionSystem config).guarded (Charged config)).Reachable w) : MoneyOk w := by
  apply h.invariant MoneyOk
  · intro w hopening
    exact moneyOk_opening hopening
  · intro call w w' hok hstep
    exact (noMore_call hcut hok call hstep.1 hstep.2).1

/-- In every run in which what is sold has been charged, by a batch whose owner had the total
deposit, and nothing leaves while it is pending: no call makes the money more, and every mail
about a sale returns no more than the deposit that was taken for it. -/
theorem money_never_grows (hcut : ∀ auction, config.auctionCut auction ≤ auction.bid)
    (h : ((auctionSystem config).guarded (Charged config)).Reachable w) :
    (∀ mail ∈ w.mails, mail.response = .successful →
      ∃ charged, mail.charged = some charged ∧ mail.body.deposit ≤ charged) ∧
    ∀ call w', Charged config call w → w.call config call = some w' →
      totalMoney w' ≤ totalMoney w := by
  have hok := moneyOk_reachable hcut h
  refine ⟨hok.mails, ?_⟩
  intro call w' hcharged hcall
  exact (noMore_call hcut hok call hcharged hcall).2

def buyStack : AuctionPlaceBid where
  auctioneer := some 12
  auctionItemId := 1
  bidAmount := 200

def soldStack : World := (postedStack.handleAuctionPlaceBid plainConfig 2 buyStack).1

theorem reachable_postedStack : (auctionSystem plainConfig).Reachable postedStack :=
  .step (.sellItem 1 sellStack 0) (.init opening_market) rfl

/-- The seller gets a deposit of 10 that nobody paid. -/
theorem sale_pays_uncharged :
    (auctionSystem plainConfig).Reachable postedStack ∧
      postedStack.call plainConfig (.placeBid 2 buyStack) = some soldStack ∧
      totalMoney postedStack = 2000 ∧ totalMoney soldStack = 2010 ∧
      soldStack.mails.any (fun mail => mail.response = .successful ∧ mail.body.deposit = 10 ∧
        mail.charged = none) = true :=
  ⟨reachable_postedStack, rfl, by decide, by decide, by decide⟩

def waitingStack : World := (postedStack.updatePendingAuctions plainConfig 60).getD market

def chargedStack : World := (waitingStack.updatePendingAuctions plainConfig 120).getD market

theorem reachable_chargedStack :
    ((auctionSystem plainConfig).guarded (Charged plainConfig)).Reachable chargedStack := by
  have hposted : ((auctionSystem plainConfig).guarded (Charged plainConfig)).Reachable
      postedStack := by
    refine .step (.sellItem 1 sellStack 0) (.init opening_market) ⟨⟨?_, ?_, ?_⟩, rfl⟩
    · exact fun _ hends => hends.elim
    · exact fun _ hsells => hsells.elim
    · intro now hcall
      cases hcall
  -- In both updates the seller has more than the deposit.
  have hcharged : ∀ (w : World) (now : Nat),
      (∀ thisAH ∈ w.pending.items, (w.findConnectedPlayer thisAH.player).all
        (fun player => 10 ≤ player.money) = true) → Charged plainConfig (.updatePending now) w := by
    intro w now howns
    refine ⟨fun _ hends => hends.elim, fun _ hsells => hsells.elim, ?_⟩
    intro _ _ thisAH hthis player first rest hplayer _ _
    have hmoney := howns thisAH hthis
    rw [hplayer, all_some, decide_eq_true_eq] at hmoney
    unfold batchDeposit
    split
    · exact UInt64.zero_le
    · exact hmoney
  have hwaiting : ((auctionSystem plainConfig).guarded (Charged plainConfig)).Reachable
      waitingStack :=
    .step (.updatePending 60) hposted ⟨hcharged _ _ (by decide), rfl⟩
  exact .step (.updatePending 120) hwaiting ⟨hcharged _ _ (by decide), rfl⟩

/-- The same buyout after the deposit was taken. -/
theorem money_never_grows_charged :
    chargedStack.auctions.items.map (fun auction => auction.charged) = [some 10] ∧
      totalMoney (chargedStack.handleAuctionPlaceBid plainConfig 2 buyStack).1 ≤
        totalMoney chargedStack := by
  refine ⟨by decide, ?_⟩
  have hcut : ∀ auction, plainConfig.auctionCut auction ≤ auction.bid := fun _ => UInt64.zero_le
  apply (money_never_grows hcut reachable_chargedStack).2 (.placeBid 2 buyStack)
  · refine ⟨?_, ?_, ?_⟩
    · intro auction _ hpending
      obtain ⟨thisAH, hthis, -⟩ := hpending
      cases hthis
    · intro auction hsells
      obtain ⟨player, -, hchecked, -⟩ := hsells
      have hall : ∀ auction ∈ chargedStack.auctions.items, auction.charged.isSome = true := by
        decide
      exact hall auction (find_eq_some.mp (checkPlaceBid_ok hchecked).1).1
    · intro now hcall
      cases hcall
  · rfl

end LegionServer.Guarantees.AuctionMoney
