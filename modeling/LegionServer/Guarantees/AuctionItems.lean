import LegionServer.Guarantees.AuctionMoney

/-!
# Items in the auction house

An item is in an inventory, in an auction or in a mail. The sum of any weight of the items
over the three places tells both how many objects have a guid and how many units an entry
has.
-/
namespace LegionServer.Guarantees.AuctionItems
open Library Source Source.Auctions List FlatSet World
  Guarantees.PendingAuctions Guarantees.AuctionMoney

variable {config : AuctionConfig} {w w' w'' : World} {auction posted : AuctionEntry}
  {player : Player} {g : Item → ℤ} {item : Item}

/-- The weight of the items of the players, in the auctions and in the mails. -/
def weigh (g : Item → ℤ) (w : World) : ℤ :=
  (w.players.sum fun player => player.items.sum g) + w.aItems.sum g +
    (w.mails.map fun mail => (mail.items.map g).sum).sum

def unitsOf (entry : Nat) (item : Item) : ℤ := if item.entry = entry then item.count else 0

def units (entry : Nat) (w : World) : ℤ := weigh (unitsOf entry) w

def isGuid (guid : Nat) (item : Item) : ℤ := if item.guid = guid then 1 else 0

def objects (guid : Nat) (w : World) : ℤ := weigh (isGuid guid) w

theorem isGuid_nonneg (guid : Nat) (item : Item) : 0 ≤ isGuid guid item := by
  unfold isGuid
  split <;> omega

theorem sum_nonneg {α : Type*} {key : α → Nat} (s : FlatSet key) {f : α → ℤ}
    (h : ∀ a, 0 ≤ f a) : 0 ≤ s.sum f := by
  apply List.sum_nonneg
  intro value hvalue
  obtain ⟨a, -, rfl⟩ := mem_map.mp hvalue
  exact h a

theorem weigh_parts_nonneg (hg : ∀ item, 0 ≤ g item) (w : World) :
    0 ≤ (w.players.sum fun player => player.items.sum g) ∧ 0 ≤ w.aItems.sum g ∧
      0 ≤ (w.mails.map fun mail => (mail.items.map g).sum).sum := by
  refine ⟨sum_nonneg _ fun player => sum_nonneg _ hg, sum_nonneg _ hg, ?_⟩
  apply List.sum_nonneg
  intro value hvalue
  obtain ⟨mail, -, rfl⟩ := mem_map.mp hvalue
  apply List.sum_nonneg
  intro value hvalue
  obtain ⟨item, -, rfl⟩ := mem_map.mp hvalue
  exact hg item

theorem le_sum {α : Type*} {key : α → Nat} {s : FlatSet key} {a : α} {f : α → ℤ}
    (hf : ∀ a, 0 ≤ f a) (hmem : a ∈ s.items) : f a ≤ s.sum f := by
  apply single_le_sum
  · intro value hvalue
    obtain ⟨b, -, rfl⟩ := mem_map.mp hvalue
    exact hf b
  · exact mem_map_of_mem hmem

structure Matched (w : World) : Prop where
  fresh : ∀ auction ∈ w.auctions.items, auction.id < w.nextAuctionId
  listed : ∀ auction ∈ w.auctions.items, ∃ item ∈ w.aItems.items, item.guid = auction.itemGUIDLow
  owned : ∀ item ∈ w.aItems.items, ∃ auction ∈ w.auctions.items, auction.itemGUIDLow = item.guid
  one : ∀ auction ∈ w.auctions.items, ∀ other ∈ w.auctions.items,
    auction.itemGUIDLow = other.itemGUIDLow → auction = other

structure ItemsOk (w : World) : Prop where
  matched : Matched w
  single : ∀ guid, objects guid w ≤ 1
  given : ∀ guid, w.nextItemGuid ≤ guid → objects guid w = 0

structure NoNewItems (w w' : World) : Prop where
  weigh_le : ∀ g : Item → ℤ, (∀ item, 0 ≤ g item) → weigh g w' ≤ weigh g w
  nextItemGuid : w'.nextItemGuid = w.nextItemGuid

theorem ItemsOk.of_noNew (h : ItemsOk w) (hless : NoNewItems w w') (hmatched : Matched w') :
    ItemsOk w' where
  matched := hmatched
  single guid := (hless.weigh_le _ (isGuid_nonneg guid)).trans (h.single guid)
  given guid hguid := by
    rw [hless.nextItemGuid] at hguid
    have hle := hless.weigh_le _ (isGuid_nonneg guid)
    have hparts := weigh_parts_nonneg (isGuid_nonneg guid) w'
    have hzero := h.given guid hguid
    unfold objects weigh at hzero ⊢
    unfold weigh at hle
    omega

theorem weigh_sendMailTo (mail : AuctionMail) :
    weigh g (w.sendMailTo mail) = weigh g w + (mail.items.map g).sum := by
  simp only [weigh, sendMailTo, map_append, map_cons, map_nil,
    sum_append, sum_cons, sum_nil, add_zero, add_assoc]

theorem weigh_removeAItem (id : Nat) :
    weigh g (w.removeAItem id) = weigh g w - w.aItems.value g id := by
  simp only [weigh, World.removeAItem, FlatSet.sum_erase]
  omega

theorem weigh_addAItem (hnew : w.aItems.find item.guid = none) :
    weigh g (w.addAItem item) = weigh g w + g item := by
  simp only [weigh, World.addAItem, sum_put, value_none hnew]
  omega

variable {changed : Player}

section
variable (hfind : w.players.find player.guid = some player) (hguid : changed.guid = player.guid)
include hfind hguid

theorem weigh_putPlayer :
    weigh g (w.putPlayer changed) = weigh g w - player.items.sum g + changed.items.sum g := by
  simp only [weigh, putPlayer, sum_put, hguid, value_some hfind]
  omega

theorem weigh_pay (hitems : changed.items = player.items) :
    weigh g (w.putPlayer changed) = weigh g w := by
  rw [weigh_putPlayer hfind hguid, hitems]
  omega

end

theorem value_nonneg (hg : ∀ item, 0 ≤ g item) (id : Nat) : 0 ≤ w.aItems.value g id := by
  unfold FlatSet.value
  cases w.aItems.find id with
  | none => exact le_rfl
  | some item => exact hg item

structure Quiet (config : AuctionConfig) (w w' : World) : Prop where
  weigh : ∀ g, weigh g w' = weigh g w
  aItems : w'.aItems = w.aItems
  auctions : w'.auctions = w.auctions
  nextAuctionId : w'.nextAuctionId = w.nextAuctionId
  nextItemGuid : w'.nextItemGuid = w.nextItemGuid
  receivers : ∀ guid, w'.receiverExists config guid = w.receiverExists config guid

theorem Quiet.refl : Quiet config w w := ⟨fun _ => rfl, rfl, rfl, rfl, rfl, fun _ => rfl⟩

theorem Quiet.trans (h : Quiet config w w') (h' : Quiet config w' w'') : Quiet config w w'' where
  weigh g := (h'.weigh g).trans (h.weigh g)
  aItems := h'.aItems.trans h.aItems
  auctions := h'.auctions.trans h.auctions
  nextAuctionId := h'.nextAuctionId.trans h.nextAuctionId
  nextItemGuid := h'.nextItemGuid.trans h.nextItemGuid
  receivers guid := (h'.receivers guid).trans (h.receivers guid)

theorem quiet_sendMailTo {mail : AuctionMail} (hmail : mail.items = []) :
    Quiet config w (w.sendMailTo mail) := by
  refine ⟨fun g => ?_, rfl, rfl, rfl, rfl, fun _ => rfl⟩
  rw [weigh_sendMailTo, hmail]
  simp

theorem quiet_pay (hfind : w.players.find player.guid = some player) (amount : UInt64) :
    Quiet config w (w.putPlayer (player.pay amount)) := by
  refine ⟨fun g => weigh_pay hfind rfl rfl, rfl, rfl, rfl, rfl, fun guid => ?_⟩
  simp only [World.receiverExists, findConnectedPlayer, accountIdByGuid,
    putPlayer, find_put]
  by_cases hself : guid = player.guid
  · rw [hself, hfind]
    by_cases hconnected : player.connected = true <;>
      simp [Player.pay, Option.filter, hconnected]
  · have hother : guid ≠ (player.pay amount).guid := hself
    rw [if_neg hother]

theorem quiet_salePending : Quiet config w (w.sendAuctionSalePendingMail config auction) := by
  unfold sendAuctionSalePendingMail
  split
  · exact quiet_sendMailTo rfl
  · exact .refl

theorem quiet_successful : Quiet config w (w.sendAuctionSuccessfulMail config auction) := by
  unfold sendAuctionSuccessfulMail
  split
  · exact quiet_sendMailTo rfl
  · exact .refl

theorem quiet_outbidded : Quiet config w (w.sendAuctionOutbiddedMail config auction) := by
  unfold sendAuctionOutbiddedMail
  split
  · exact quiet_sendMailTo rfl
  · exact .refl

theorem quiet_cancelledToBidder :
    Quiet config w (w.sendAuctionCancelledToBidderMail config auction) := by
  unfold sendAuctionCancelledToBidderMail
  split
  · exact quiet_sendMailTo rfl
  · exact .refl

structure Delivered (received : Prop) (w w' : World) : Prop extends NoNewItems w w' where
  weigh_eq : received → ∀ g, weigh g w' = weigh g w

theorem Quiet.delivered (h : Quiet config w w') (received : Prop) : Delivered received w w' :=
  ⟨⟨fun g _ => le_of_eq (h.weigh g), h.nextItemGuid⟩, fun _ => h.weigh⟩

theorem Delivered.trans {received received' : Prop} (h : Delivered received w w')
    (h' : Delivered received' w' w'') : Delivered (received ∧ received') w w'' :=
  ⟨⟨fun g hg => (h'.weigh_le g hg).trans (h.weigh_le g hg), h'.nextItemGuid.trans h.nextItemGuid⟩,
    fun hboth g => (h'.weigh_eq hboth.2 g).trans (h.weigh_eq hboth.1 g)⟩

structure Ended (auction : AuctionEntry) (w w' : World) : Prop where
  auctions : w'.auctions = w.auctions.erase auction.id
  aItems : ∀ item, item ∈ w'.aItems.items ↔ item ∈ w.aItems.items ∧ item.guid ≠ auction.itemGUIDLow
  nextAuctionId : w'.nextAuctionId = w.nextAuctionId

theorem Matched.ended (h : Matched w) (hended : Ended auction w w')
    (hfind : w.auctions.find auction.id = some posted)
    (hguid : posted.itemGUIDLow = auction.itemGUIDLow) : Matched w' := by
  have hposted := find_eq_some.mp hfind
  have hmem : ∀ other, other ∈ w'.auctions.items ↔
      other ∈ w.auctions.items ∧ other.id ≠ auction.id := by
    intro other
    rw [hended.auctions, mem_erase]
  constructor
  · intro other hother
    rw [hended.nextAuctionId]
    exact h.fresh other ((hmem other).mp hother).1
  · intro other hother
    obtain ⟨hin, hne⟩ := (hmem other).mp hother
    obtain ⟨item, hitem, hitemGuid⟩ := h.listed other hin
    refine ⟨item, (hended.aItems item).mpr ⟨hitem, ?_⟩, hitemGuid⟩
    intro hsame
    apply hne
    rw [h.one other hin posted hposted.1 (by rw [← hitemGuid, hsame, hguid]), hposted.2]
  · intro item hitem
    obtain ⟨hin, hne⟩ := (hended.aItems item).mp hitem
    obtain ⟨other, hother, hotherGuid⟩ := h.owned item hin
    refine ⟨other, (hmem other).mpr ⟨hother, ?_⟩, hotherGuid⟩
    intro hsame
    apply hne
    rw [← hotherGuid, eq_of_key hother hposted.1 (hsame.trans hposted.2.symm), hguid]
  · intro other hother another hanother
    exact h.one other ((hmem other).mp hother).1 another ((hmem another).mp hanother).1

theorem delivered_item (w : World) (id : Nat) (exists_ : Bool) (mail : Item → AuctionMail)
    (hmail : ∀ item, (mail item).items = [item]) :
    let sent := match w.aItems.find id with
      | none => w
      | some item => if exists_ then w.sendMailTo (mail item) else w.removeAItem id
    Delivered (exists_ = true) w (sent.removeAItem id) ∧
      ∀ item, item ∈ (sent.removeAItem id).aItems.items ↔
        item ∈ w.aItems.items ∧ item.guid ≠ id := by
  cases hfind : w.aItems.find id with
  | none =>
    have hweigh : ∀ g, weigh g (w.removeAItem id) = weigh g w := by
      intro g
      rw [weigh_removeAItem, value_none hfind, sub_zero]
    exact ⟨⟨⟨fun g _ => le_of_eq (hweigh g), rfl⟩, fun _ => hweigh⟩, fun _ => mem_erase⟩
  | some item =>
    cases exists_ with
    | true =>
      have hweigh : ∀ g, weigh g ((w.sendMailTo (mail item)).removeAItem id) = weigh g w := by
        intro g
        have hvalue : (w.sendMailTo (mail item)).aItems.value g id = g item :=
          value_some hfind
        rw [weigh_removeAItem, hvalue, weigh_sendMailTo, hmail]
        simp
      exact ⟨⟨⟨fun g _ => le_of_eq (hweigh g), rfl⟩, fun _ => hweigh⟩,
        fun _ => mem_erase⟩
    | false =>
      refine ⟨⟨⟨fun g hg => ?_, rfl⟩, fun h => by cases h⟩, fun other => ?_⟩
      · have hfirst := value_nonneg (w := w) hg id
        have hsecond := value_nonneg (w := w.removeAItem id) hg id
        change weigh g ((w.removeAItem id).removeAItem id) ≤ _
        rw [weigh_removeAItem, weigh_removeAItem]
        omega
      · change other ∈ ((w.aItems.erase id).erase id).items ↔ _
        rw [mem_erase, mem_erase, and_assoc, and_self]

theorem delivered_removeAuction {received : Prop} (h : Delivered received w w') (id : Nat) :
    Delivered received w (w'.removeAuction id) :=
  ⟨⟨h.weigh_le, h.nextItemGuid⟩, h.weigh_eq⟩

theorem endUnsold_delivered (config : AuctionConfig) (w : World) (auction : AuctionEntry) :
    Delivered (w.receiverExists config auction.owner = true) w (w.endUnsold config auction) ∧
      Ended auction w (w.endUnsold config auction) := by
  obtain ⟨hdelivered, hitems⟩ := delivered_item w auction.itemGUIDLow
    (w.receiverExists config auction.owner) (fun item => ⟨auction.owner, auction.id, .expired,
      ⟨0, 0, auction.buyout, auction.deposit, 0⟩, 0, [item], none⟩) fun _ => rfl
  refine ⟨delivered_removeAuction hdelivered auction.id, ?_, hitems, ?_⟩
  · obtain ⟨ended, hbooks, hend⟩ := endUnsold_eq config w auction
    rw [hend, removeAuction, hbooks.auctions]
  · obtain ⟨ended, hbooks, hend⟩ := endUnsold_eq config w auction
    rw [hend]
    exact hbooks.nextAuctionId

theorem endSold_delivered (config : AuctionConfig) (w : World) (auction : AuctionEntry) :
    Delivered (w.receiverExists config auction.bidder = true) w (w.endSold config auction) ∧
      Ended auction w (w.endSold config auction) := by
  have hquiet : Quiet config w (w.sendAuctionSuccessfulMail config auction) := quiet_successful
  obtain ⟨hdelivered, hitems⟩ := delivered_item (w.sendAuctionSuccessfulMail config auction)
    auction.itemGUIDLow ((w.sendAuctionSuccessfulMail config auction).receiverExists config
      auction.bidder) (fun item => ⟨auction.bidder, auction.id, .won,
      ⟨auction.owner, auction.bid, auction.buyout, 0, 0⟩, 0, [item], none⟩) fun _ => rfl
  have hsold : Delivered ((w.sendAuctionSuccessfulMail config auction).receiverExists config
      auction.bidder = true) (w.sendAuctionSuccessfulMail config auction)
      (w.endSold config auction) := delivered_removeAuction hdelivered auction.id
  have hleft : ∀ item, item ∈ (w.endSold config auction).aItems.items ↔
      item ∈ (w.sendAuctionSuccessfulMail config auction).aItems.items ∧
        item.guid ≠ auction.itemGUIDLow := hitems
  rw [hquiet.aItems] at hleft
  rw [hquiet.receivers] at hsold
  have hboth := (hquiet.delivered True).trans hsold
  refine ⟨?_, ?_, hleft, ?_⟩
  · rw [true_and] at hboth
    exact hboth
  · obtain ⟨ended, hbooks, hend⟩ := endSold_eq config w auction
    rw [hend, removeAuction, hbooks.auctions]
  · obtain ⟨ended, hbooks, hend⟩ := endSold_eq config w auction
    rw [hend]
    exact hbooks.nextAuctionId

theorem Matched.of_quiet (h : Matched w) (hquiet : Quiet config w w') : Matched w' := by
  constructor
  · rw [hquiet.auctions, hquiet.nextAuctionId]
    exact h.fresh
  · rw [hquiet.auctions, hquiet.aItems]
    exact h.listed
  · rw [hquiet.auctions, hquiet.aItems]
    exact h.owned
  · rw [hquiet.auctions]
    exact h.one

theorem Matched.putAuction (h : Matched w) (hfind : w.auctions.find auction.id = some posted)
    (hguid : auction.itemGUIDLow = posted.itemGUIDLow) : Matched (w.putAuction auction) := by
  obtain ⟨hposted, hid⟩ := find_eq_some.mp hfind
  -- Every auction afterwards stands for one before with the same id and the same item.
  have hbefore : ∀ other ∈ (w.putAuction auction).auctions.items,
      ∃ old ∈ w.auctions.items, old.id = other.id ∧ old.itemGUIDLow = other.itemGUIDLow := by
    intro other hother
    cases mem_put.mp hother with
    | inl hself => exact ⟨posted, hposted, by rw [hself, hid], by rw [hself, hguid]⟩
    | inr hold => exact ⟨other, hold.1, rfl, rfl⟩
  constructor
  · intro other hother
    obtain ⟨old, hold, hsame, -⟩ := hbefore other hother
    rw [← hsame]
    exact h.fresh old hold
  · intro other hother
    obtain ⟨old, hold, -, hsame⟩ := hbefore other hother
    rw [← hsame]
    exact h.listed old hold
  · intro item hitem
    obtain ⟨old, hold, hsame⟩ := h.owned item hitem
    by_cases hself : old.id = auction.id
    · refine ⟨auction, mem_put.mpr (Or.inl rfl), ?_⟩
      rw [hguid, ← hsame, eq_of_key hold hposted (hself.trans hid.symm)]
    · exact ⟨old, mem_put.mpr (Or.inr ⟨hold, hself⟩), hsame⟩
  · intro other hother another hanother hsame
    obtain ⟨old, hold, holdId, holdGuid⟩ := hbefore other hother
    obtain ⟨old', hold', holdId', holdGuid'⟩ := hbefore another hanother
    have heq := h.one old hold old' hold' (by rw [holdGuid, holdGuid', hsame])
    apply eq_of_key hother hanother
    rw [← holdId, ← holdId', heq]

/-- The invariant, and nothing deleted where the receiver is there. -/
def Keeps (received : Prop) (w w' : World) : Prop :=
  ItemsOk w' ∧ (received → ∀ g, weigh g w' = weigh g w)

theorem Keeps.refl (h : ItemsOk w) (received : Prop) : Keeps received w w := ⟨h, fun _ _ => rfl⟩

theorem Keeps.trans {received received' : Prop} (h : Keeps received w w')
    (h' : Keeps received' w' w'') : Keeps (received ∧ received') w w'' :=
  ⟨h'.1, fun hboth g => (h'.2 hboth.2 g).trans (h.2 hboth.1 g)⟩

theorem ItemsOk.keeps {received : Prop} (h : ItemsOk w) (hdelivered : Delivered received w w')
    (hmatched : Matched w') : Keeps received w w' :=
  ⟨h.of_noNew hdelivered.toNoNewItems hmatched, hdelivered.weigh_eq⟩

theorem ItemsOk.bid (config : AuctionConfig) (h : ItemsOk w) (hfind : w.players.find player.guid = some player)
    (hauction : w.auctions.find auction.id = some auction) (bidAmount : UInt64) :
    Keeps True w (w.bid config player auction bidAmount) := by
  have hquiet : ∃ paid, Quiet config w paid ∧ w.bid config player auction bidAmount =
      paid.putAuction { auction with bidder := player.guid, bid := bidAmount } := by
    unfold World.bid
    split
    · split
      · exact ⟨_, quiet_pay hfind _, rfl⟩
      · refine ⟨_, quiet_outbidded.trans (quiet_pay ?_ _), rfl⟩
        rw [sameBooks_outbidded.players, hfind]
    · exact ⟨_, quiet_pay hfind _, rfl⟩
  obtain ⟨paid, hquiet, heq⟩ := hquiet
  have hput : paid.auctions.find auction.id = some auction := by rw [hquiet.auctions, hauction]
  rw [heq]
  refine h.keeps ⟨⟨?_, hquiet.nextItemGuid⟩, fun _ => hquiet.weigh⟩ ?_
  · exact fun g _ => le_of_eq (hquiet.weigh g)
  · exact (h.matched.of_quiet hquiet).putAuction hput rfl

theorem ItemsOk.buyout (config : AuctionConfig) (h : ItemsOk w) (hfind : w.players.find player.guid = some player)
    (hauction : w.auctions.find auction.id = some auction) :
    Keeps (w.receiverExists config player.guid = true) w (w.buyout config player auction) := by
  have hpaid : Quiet config w (w.payBuyout config player auction) := by
    unfold payBuyout
    split
    · exact quiet_pay hfind _
    · dsimp only
      split
      · exact (quiet_pay hfind _).trans quiet_outbidded
      · exact quiet_pay hfind _
  have hquiet : Quiet config w ((w.payBuyout config player auction).sendAuctionSalePendingMail
      config (auction.boughtBy player.guid)) := hpaid.trans quiet_salePending
  obtain ⟨hsold, hended⟩ := endSold_delivered config
    ((w.payBuyout config player auction).sendAuctionSalePendingMail config
      (auction.boughtBy player.guid)) (auction.boughtBy player.guid)
  rw [hquiet.receivers] at hsold
  have hboth := (hquiet.delivered True).trans hsold
  rw [true_and] at hboth
  apply h.keeps hboth
  have hposted : ((w.payBuyout config player auction).sendAuctionSalePendingMail config
      (auction.boughtBy player.guid)).auctions.find (auction.boughtBy player.guid).id =
        some auction := by
    rw [hquiet.auctions]
    exact hauction
  exact (h.matched.of_quiet hquiet).ended hended hposted rfl

theorem ItemsOk.handleAuctionPlaceBid (config : AuctionConfig) (h : ItemsOk w) (guid : Nat)
    (packet : AuctionPlaceBid) :
    Keeps (∀ auction, w.Ends config (.placeBid guid packet) auction →
      w.receiverExists config guid = true) w
      (w.handleAuctionPlaceBid config guid packet).1 := by
  apply handleAuctionPlaceBid_cases (motive := Keeps _ w) (.refl h _)
  · intro player auction hfind hauction _ _ _
    obtain ⟨hok, hsame⟩ := h.bid config hfind hauction packet.bidAmount
    exact ⟨hok, fun _ => hsame trivial⟩
  · intro player auction hfind hguid hauction _ _ hends
    obtain ⟨hok, hsame⟩ := h.buyout config hfind hauction
    rw [hguid] at hsame
    exact ⟨hok, fun hthere => hsame (hthere auction hends)⟩

theorem ItemsOk.handleAuctionRemoveItem (h : ItemsOk w) (guid : Nat) (packet : AuctionRemoveItem) :
    Keeps True w (w.handleAuctionRemoveItem config guid packet).1 := by
  apply handleAuctionRemoveItem_cases (motive := Keeps True w) (.refl h _)
  intro player auction item hfind hauction hitem _ _
  have hquiet : Quiet config w (w.payCancel config player auction) := by
    unfold payCancel
    split
    · apply quiet_cancelledToBidder.trans (quiet_pay _ _)
      rw [sameBooks_cancelledToBidder.players, hfind]
    · exact .refl
  generalize w.payCancel config player auction = paid at hquiet ⊢
  -- The item goes into the mail to its owner.
  have hweigh : ∀ g, weigh g ((paid.sendAuctionCanceledMail player auction item).removeAItem
      auction.itemGUIDLow) = weigh g w := by
    intro g
    have hvalue : (paid.sendAuctionCanceledMail player auction item).aItems.value g
        auction.itemGUIDLow = g item := by
      apply value_some
      change paid.aItems.find _ = _
      rw [hquiet.aItems, hitem]
    rw [weigh_removeAItem, hvalue, sendAuctionCanceledMail, weigh_sendMailTo, hquiet.weigh]
    simp
  have hdelivered : Delivered True w ((paid.sendAuctionCanceledMail player auction
      item).removeAItem auction.itemGUIDLow) :=
    ⟨⟨fun g _ => le_of_eq (hweigh g), hquiet.nextItemGuid⟩, fun _ => hweigh⟩
  apply h.keeps (delivered_removeAuction hdelivered auction.id)
  have hended : Ended auction paid (((paid.sendAuctionCanceledMail player auction
      item).removeAItem auction.itemGUIDLow).removeAuction auction.id) :=
    ⟨rfl, fun _ => mem_erase, rfl⟩
  have hposted : paid.auctions.find auction.id = some auction := by
    rw [hquiet.auctions]
    exact hauction
  exact (h.matched.of_quiet hquiet).ended hended hposted rfl

end LegionServer.Guarantees.AuctionItems
