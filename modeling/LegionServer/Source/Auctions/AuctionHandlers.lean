import LegionServer.Library.Transition
import LegionServer.Source.Auctions.AuctionHouse
import Mathlib.Tactic.Linarith

/-!
# Posting, bidding, cancelling and the pending deposits

`HandleAuctionSellItem`, `HandleAuctionPlaceBid` and `HandleAuctionRemoveItem`
(`AuctionHouseHandler.cpp:116-559`) and the pending lists of `AuctionHouseMgr`
(`AuctionHouseMgr.cpp:411-519`). The auctioneer of a request is the faction of the
creature that the player can interact with, if any.
-/
namespace LegionServer.Source.Auctions
open Library Source.Guilds

inductive AuctionError where
  | itemNotFound | databaseError | notEnoughMoney | bidOwn | higherBid
  deriving DecidableEq

/-- How a handler ends; it may return without a word. -/
inductive AuctionResult where
  | silent
  | error (error : AuctionError)
  | ok
  deriving DecidableEq

structure SellItem where
  guid : Nat
  useCount : Nat
  deriving DecidableEq

structure AuctionSellItem where
  auctioneer : Option Nat
  minBid : UInt64
  buyoutPrice : UInt64
  runTime : Nat
  items : List SellItem

structure AuctionPlaceBid where
  auctioneer : Option Nat
  auctionItemId : Nat
  bidAmount : UInt64

structure AuctionRemoveItem where
  auctioneer : Option Nat
  auctionItemId : Nat

structure Posting where
  /-- The items with what is taken of each. -/
  items : List (SellItem × Item)
  first : SellItem × Item
  finalCount : Nat
  runTime : Nat
  house : House
  auctionHouseEntry : Nat
  deposit : UInt64

/-- The first loop over the items. -/
def gatherItems (config : AuctionConfig) (w : World) (player : Player) :
    List SellItem → Except AuctionError (List (SellItem × Item))
  | [] => .ok []
  | wanted :: rest =>
    match player.items.find wanted.guid with
    | none => .error .itemNotFound
    | some item =>
      if (w.aItems.find item.guid).isSome || !config.canBeSold item ||
          item.count < wanted.useCount then .error .databaseError
      else do
        let items ← gatherItems config w player rest
        return (wanted, item) :: items

def pairError (a b : SellItem × Item) : Option AuctionError :=
  if a.1.guid = b.1.guid then some .databaseError
  else if a.2.entry ≠ b.2.entry then some .itemNotFound
  else none

/-- The double loop over the items. -/
def checkPairs : List (SellItem × Item) → Option AuctionError
  | [] => none
  | a :: rest => (rest.findSome? (pairError a)).or (checkPairs rest)

/-- The checks of `HandleAuctionSellItem`, in their order. -/
def checkSellItem (config : AuctionConfig) (w : World) (player : Player)
    (packet : AuctionSellItem) : Except AuctionResult Posting := do
  if packet.items.any fun item => item.guid = 0 ∨ item.useCount = 0 ∨ item.useCount > 1000 then
    throw .silent
  if packet.minBid = 0 ∨ packet.runTime = 0 then throw .silent
  if packet.minBid > MAX_MONEY_AMOUNT ∨ packet.buyoutPrice > MAX_MONEY_AMOUNT then
    throw (.error .databaseError)
  let some faction := packet.auctioneer | throw .silent
  let some auctionHouseEntry := config.auctionHouseEntry faction | throw .silent
  let runTime := packet.runTime * MINUTE % 2 ^ 32
  if runTime ≠ 1 * MIN_AUCTION_TIME ∧ runTime ≠ 2 * MIN_AUCTION_TIME ∧
      runTime ≠ 4 * MIN_AUCTION_TIME then throw .silent
  let items ← (gatherItems config w player packet.items).mapError .error
  let finalCount := (items.map fun item => item.1.useCount).sum
  let first :: _ := items | throw (.error .databaseError)
  if finalCount = 0 then throw (.error .databaseError)
  if let some error := checkPairs items then throw (.error error)
  if items.any fun item => config.maxStackCount item.2.entry < finalCount then
    throw (.error .databaseError)
  let deposit := config.auctionDeposit auctionHouseEntry runTime first.2 finalCount
  if !player.hasEnoughMoney deposit then throw (.error .notEnoughMoney)
  return { items, first, finalCount, runTime, house := config.auctionsMap faction,
           auctionHouseEntry, deposit }

def AuctionEntry.boughtBy (auction : AuctionEntry) (guid : Nat) : AuctionEntry :=
  { auction with bidder := guid, bid := auction.buyout }

namespace World

variable (config : AuctionConfig) (w : World)

def pendingAuctionAdd (player : Nat) (id : Nat) : World :=
  match w.pending.find player with
  | some thisAH =>
    { w with pending := w.pending.put { thisAH with auctions := thisAH.auctions ++ [id] } }
  | none => { w with pending := w.pending.put { player, auctions := [id], count := 0 } }

variable (player : Player)

/-- The entry of a new auction for an item, added to its house and to the pending list. -/
def addPosted (packet : AuctionSellItem) (posting : Posting) (item : Item) (now : Nat) : World :=
  let auction : AuctionEntry :=
    { id := w.nextAuctionId
      house := posting.house
      itemGUIDLow := item.guid
      itemEntry := item.entry
      itemCount := item.count
      owner := player.guid
      startbid := packet.minBid
      bid := 0
      buyout := packet.buyoutPrice
      expireTime := now + config.auctionTime posting.runTime
      bidder := 0
      deposit := posting.deposit
      etime := posting.runTime
      auctionHouseEntry := posting.auctionHouseEntry }
  (({ w with nextAuctionId := w.nextAuctionId + 1 }.addAItem item).putAuction
    auction).pendingAuctionAdd player.guid auction.id

/-- `CloneItem`, as far as counts go. -/
def cloneItem (item : Item) (count : Nat) : Option (Item × World) :=
  if count < 1 then none
  else some ({ guid := w.nextItemGuid, entry := item.entry,
               count := min count (config.maxStackCount item.entry) },
    { w with nextItemGuid := w.nextItemGuid + 1 })

def takeSource (items : FlatSet Item.guid) (source : SellItem × Item) : FlatSet Item.guid :=
  if source.2.count = source.1.useCount then items.erase source.2.guid
  else items.put { source.2 with count := source.2.count - source.1.useCount }

/-- The rest of `HandleAuctionSellItem`. -/
def postAuction (packet : AuctionSellItem) (posting : Posting) (now : Nat) :
    World × AuctionResult :=
  let item := posting.first.2
  if packet.items.length = 1 ∧ item.count = posting.first.1.useCount then
    ((w.addPosted config player packet posting item now).putPlayer
      { player with items := player.items.erase item.guid }, .ok)
  else
    match w.cloneItem config item posting.finalCount with
    | none => (w, .error .databaseError)
    | some (newItem, w) =>
      ((w.addPosted config player packet posting newItem now).putPlayer
        { player with items := posting.items.foldl takeSource player.items }, .ok)

def handleAuctionSellItem (guid : Nat) (packet : AuctionSellItem) (now : Nat) :
    World × AuctionResult :=
  match w.findConnectedPlayer guid with
  | none => (w, .silent)
  | some player =>
    match checkSellItem config w player packet with
    | .error result => (w, result)
    | .ok posting => w.postAuction config player packet posting now

def belowBuyout (auction : AuctionEntry) (bidAmount : UInt64) : Bool :=
  bidAmount < auction.buyout || auction.buyout = 0

/-- The checks of `HandleAuctionPlaceBid`. -/
def checkPlaceBid (packet : AuctionPlaceBid) :
    Except AuctionResult AuctionEntry := do
  if packet.auctionItemId = 0 ∨ packet.bidAmount = 0 then throw .silent
  let some faction := packet.auctioneer | throw .silent
  let some auction := w.getAuction (config.auctionsMap faction) packet.auctionItemId |
    throw (.error .bidOwn)
  if auction.owner = player.guid then throw (.error .bidOwn)
  if (w.findPlayer auction.owner).isNone ∧ w.accountIdByGuid auction.owner = player.account then
    throw (.error .bidOwn)
  if packet.bidAmount ≤ auction.bid ∨ packet.bidAmount < auction.startbid then throw .silent
  if belowBuyout auction packet.bidAmount ∧
      packet.bidAmount < auction.bid + config.auctionOutBid auction then
    throw (.error .higherBid)
  if !player.hasEnoughMoney packet.bidAmount then throw (.error .notEnoughMoney)
  return auction

def bid (player : Player) (auction : AuctionEntry) (bidAmount : UInt64) : World :=
  let paid :=
    if auction.bidder ≠ 0 then
      if auction.bidder = player.guid then w.putPlayer (player.pay (bidAmount - auction.bid))
      else (w.sendAuctionOutbiddedMail config auction).putPlayer (player.pay bidAmount)
    else w.putPlayer (player.pay bidAmount)
  paid.putAuction { auction with bidder := player.guid, bid := bidAmount }

/-- The payment of a buyout, with what the last bidder gets back. -/
def payBuyout (auction : AuctionEntry) : World :=
  if player.guid = auction.bidder then w.putPlayer (player.pay (auction.buyout - auction.bid))
  else
    let paid := w.putPlayer (player.pay auction.buyout)
    if auction.bidder ≠ 0 then paid.sendAuctionOutbiddedMail config auction else paid

def buyout (auction : AuctionEntry) : World :=
  ((w.payBuyout config player auction).sendAuctionSalePendingMail config
    (auction.boughtBy player.guid)).endSold config (auction.boughtBy player.guid)

def handleAuctionPlaceBid (guid : Nat) (packet : AuctionPlaceBid) : World × AuctionResult :=
  match w.findConnectedPlayer guid with
  | none => (w, .silent)
  | some player =>
    match w.checkPlaceBid config player packet with
    | .error result => (w, result)
    | .ok auction =>
      if belowBuyout auction packet.bidAmount then
        (w.bid config player auction packet.bidAmount, .ok)
      else (w.buyout config player auction, .ok)

/-- What a player pays for cancelling, and the mail to the bidder. -/
def payCancel (auction : AuctionEntry) : World :=
  if auction.bidder ≠ 0 then
    (w.sendAuctionCancelledToBidderMail config auction).putPlayer
      (player.pay (config.auctionCut auction))
  else w

def sendAuctionCanceledMail (auction : AuctionEntry) (item : Item) : World :=
  w.sendMailTo
    { receiver := player.guid
      auction := auction.id
      response := .canceled
      body := ⟨0, 0, auction.buyout, auction.deposit, 0⟩
      items := [item] }

def handleAuctionRemoveItem (guid : Nat) (packet : AuctionRemoveItem) : World × AuctionResult :=
  match w.findConnectedPlayer guid, packet.auctioneer with
  | some player, some faction =>
    match w.getAuction (config.auctionsMap faction) packet.auctionItemId with
    | none => (w, .error .databaseError)
    | some auction =>
      if auction.owner ≠ player.guid then (w, .error .databaseError)
      else
        match w.aItems.find auction.itemGUIDLow with
        | none => (w, .error .databaseError)
        | some item =>
          if auction.bidder ≠ 0 ∧ !player.hasEnoughMoney (config.auctionCut auction) then
            (w, .silent)
          else
            ((((w.payCancel config player auction).sendAuctionCanceledMail player auction
              item).removeAItem auction.itemGUIDLow).removeAuction auction.id, .ok)
  | _, _ => (w, .silent)

/-- The loop of `PendingAuctionProcess` over its entries; the last one takes what remains. -/
def assignDeposits (share : UInt64) : UInt64 → List AuctionEntry → List AuctionEntry
  | _, [] => []
  | depositremain, [last] => [{ last with deposit := depositremain }]
  | depositremain, auction :: next :: rest =>
    { auction with deposit := share } :: assignDeposits share (depositremain - share) (next :: rest)

/-- What was taken from the owner, attributed to the auctions of a batch from the first on. -/
def recordCharges : UInt64 → List AuctionEntry → List AuctionEntry
  | _, [] => []
  | taken, auction :: rest =>
    { auction with charged := some (min auction.deposit taken) } ::
      recordCharges (taken - min auction.deposit taken) rest

/-- The entries behind the pointers of a list; `none` when one has been deleted. -/
def derefAuctions (ids : List Nat) : Option (List AuctionEntry) := ids.mapM w.auctions.find

def putAuctions (auctions : List AuctionEntry) : World := auctions.foldl putAuction w

/-- The total of a batch: the deposit for the item of its first entry. -/
def batchDeposit (first : AuctionEntry) (auctions : List AuctionEntry) : UInt64 :=
  let totalItems := (auctions.map fun auction => auction.itemCount).sum % 2 ^ 32
  match w.aItems.find first.itemGUIDLow with
  | none => 0
  | some item =>
    config.auctionDeposit first.auctionHouseEntry first.etime item totalItems

/-- `PendingAuctionProcess`; `none` where it reads a deleted entry or the first of none. -/
def pendingAuctionProcess : Option World :=
  match w.pending.find player.guid with
  | none => some w
  | some thisAH =>
    match w.derefAuctions thisAH.auctions with
    | none => none
    | some [] => none
    | some (first :: rest) =>
      let auctions := first :: rest
      let totaldeposit := w.batchDeposit config first auctions
      let assigned := assignDeposits (UInt64.ofNat (totaldeposit.toNat / auctions.length))
        totaldeposit auctions
      let payer := player.pay totaldeposit
      let w := w.putAuctions (recordCharges (player.money - payer.money) assigned)
      some ({ w with pending := w.pending.erase player.guid }.putPlayer payer)

/-- The branch for an owner who is offline: the auctions expire at once. -/
def expirePending (thisAH : PlayerAuctions) (now : Nat) : Option World :=
  match w.derefAuctions thisAH.auctions with
  | none => none
  | some auctions =>
    let w := w.putAuctions (auctions.map fun auction => { auction with expireTime := now })
    some { w with pending := w.pending.erase thisAH.player }

/-- The body of the loop of `UpdatePendingAuctions`. -/
def updatePendingOf (now : Nat) (thisAH : PlayerAuctions) : Option World :=
  match w.findConnectedPlayer thisAH.player with
  | some player =>
    if thisAH.auctions.length = thisAH.count then w.pendingAuctionProcess config player
    else
      some { w with
        pending := w.pending.put { thisAH with count := thisAH.auctions.length } }
  | none => w.expirePending thisAH now

def updatePendingAuctions (now : Nat) : Option World :=
  w.pending.items.foldlM (fun w thisAH => w.updatePendingOf config now thisAH) w

end World

inductive AuctionCall where
  | sellItem (player : Nat) (packet : AuctionSellItem) (now : Nat)
  | placeBid (player : Nat) (packet : AuctionPlaceBid)
  | removeItem (player : Nat) (packet : AuctionRemoveItem)
  | update (house : House) (curTime : Nat)
  | updatePending (now : Nat)
  /-- A player spends or loses money. -/
  | spend (player : Nat) (amount : UInt64)
  | login (player : Nat)
  | logout (player : Nat)

/-- The world after a call; `none` where the code reads a deleted entry. -/
def World.call (config : AuctionConfig) (w : World) : AuctionCall → Option World
  | .sellItem player packet now => some (w.handleAuctionSellItem config player packet now).1
  | .placeBid player packet => some (w.handleAuctionPlaceBid config player packet).1
  | .removeItem player packet => some (w.handleAuctionRemoveItem config player packet).1
  | .update house curTime => some (w.updateHouse config house curTime)
  | .updatePending now => w.updatePendingAuctions config now
  | .spend player amount =>
    (w.players.find player).elim (some w) fun owner =>
      some (w.putPlayer { owner with money := if amount ≤ owner.money then owner.money - amount
                                              else 0 })
  | .login player =>
    (w.players.find player).elim (some w) fun owner =>
      some (w.putPlayer { owner with connected := true, inWorld := true })
  | .logout player =>
    (w.players.find player).elim (some w) fun owner =>
      some (w.putPlayer { owner with connected := false, inWorld := false })

/-- Any characters with their inventories, and an auction house with nothing in it. The money
is below the cap, and no two items share a guid, given already or to be given. -/
structure World.Opening (w : World) : Prop where
  auctions : w.auctions.items = []
  aItems : w.aItems.items = []
  pending : w.pending.items = []
  mails : w.mails = []
  money : ∀ player ∈ w.players.items, player.money ≤ MAX_MONEY_AMOUNT
  distinct : (w.players.items.flatMap fun player => player.items.items.map Item.guid).Nodup
  given : ∀ player ∈ w.players.items, ∀ item ∈ player.items.items, item.guid < w.nextItemGuid

def auctionSystem (config : AuctionConfig) : System World AuctionCall where
  init := World.Opening
  step l w w' := w.call config l = some w'

/-!
# What the calls of the auction house leave alone

The mails of an ending change no player, no auction and no pending list.
-/

namespace World

variable {config : AuctionConfig} {w w' w'' : World} {auction : AuctionEntry}

/-- Only the mails and the items in auctions may differ. -/
structure SameBooks (w w' : World) : Prop where
  players : w'.players = w.players
  auctions : w'.auctions = w.auctions
  pending : w'.pending = w.pending
  nextAuctionId : w'.nextAuctionId = w.nextAuctionId
  nextItemGuid : w'.nextItemGuid = w.nextItemGuid

theorem SameBooks.rfl : SameBooks w w := ⟨.refl _, .refl _, .refl _, .refl _, .refl _⟩

theorem SameBooks.trans (h : SameBooks w w') (h' : SameBooks w' w'') : SameBooks w w'' :=
  ⟨h'.players.trans h.players, h'.auctions.trans h.auctions, h'.pending.trans h.pending,
    h'.nextAuctionId.trans h.nextAuctionId, h'.nextItemGuid.trans h.nextItemGuid⟩

theorem SameBooks.receiverExists (h : SameBooks w w') (guid : Nat) :
    w'.receiverExists config guid = w.receiverExists config guid := by
  simp only [World.receiverExists, findConnectedPlayer, accountIdByGuid, h.players]

theorem sameBooks_sendMailTo (mail : AuctionMail) : SameBooks w (w.sendMailTo mail) :=
  ⟨.refl _, .refl _, .refl _, .refl _, .refl _⟩

theorem sameBooks_removeAItem (id : Nat) : SameBooks w (w.removeAItem id) :=
  ⟨.refl _, .refl _, .refl _, .refl _, .refl _⟩

theorem sameBooks_won : SameBooks w (w.sendAuctionWonMail config auction) := by
  unfold sendAuctionWonMail
  cases w.aItems.find auction.itemGUIDLow with
  | none => exact .rfl
  | some item =>
    dsimp only
    split
    · exact sameBooks_sendMailTo _
    · exact sameBooks_removeAItem _

theorem sameBooks_expired : SameBooks w (w.sendAuctionExpiredMail config auction) := by
  unfold sendAuctionExpiredMail
  cases w.aItems.find auction.itemGUIDLow with
  | none => exact .rfl
  | some item =>
    dsimp only
    split
    · exact sameBooks_sendMailTo _
    · exact sameBooks_removeAItem _

theorem sameBooks_salePending : SameBooks w (w.sendAuctionSalePendingMail config auction) := by
  unfold sendAuctionSalePendingMail
  split
  · exact sameBooks_sendMailTo _
  · exact .rfl

theorem sameBooks_successful : SameBooks w (w.sendAuctionSuccessfulMail config auction) := by
  unfold sendAuctionSuccessfulMail
  split
  · exact sameBooks_sendMailTo _
  · exact .rfl

theorem sameBooks_outbidded : SameBooks w (w.sendAuctionOutbiddedMail config auction) := by
  unfold sendAuctionOutbiddedMail
  split
  · exact sameBooks_sendMailTo _
  · exact .rfl

theorem sameBooks_cancelledToBidder :
    SameBooks w (w.sendAuctionCancelledToBidderMail config auction) := by
  unfold sendAuctionCancelledToBidderMail
  split
  · exact sameBooks_sendMailTo _
  · exact .rfl

theorem endUnsold_eq (config : AuctionConfig) (w : World) (auction : AuctionEntry) :
    ∃ w', SameBooks w w' ∧ w.endUnsold config auction = w'.removeAuction auction.id :=
  ⟨_, sameBooks_expired.trans (sameBooks_removeAItem _), rfl⟩

theorem endSold_eq (config : AuctionConfig) (w : World) (auction : AuctionEntry) :
    ∃ w', SameBooks w w' ∧ w.endSold config auction = w'.removeAuction auction.id :=
  ⟨_, (sameBooks_successful.trans sameBooks_won).trans (sameBooks_removeAItem _), rfl⟩

theorem getAuction_eq_some {house : House} {id : Nat} (h : w.getAuction house id = some auction) :
    w.auctions.find auction.id = some auction ∧ auction.house = house := by
  obtain ⟨hfind, hhouse⟩ := Option.filter_eq_some_iff.mp h
  obtain ⟨hmem, -⟩ := FlatSet.find_eq_some.mp hfind
  exact ⟨FlatSet.find_key hmem, of_decide_eq_true hhouse⟩

theorem checkPlaceBid_ok {player : Player} {packet : AuctionPlaceBid}
    (h : w.checkPlaceBid config player packet = .ok auction) :
    w.auctions.find auction.id = some auction ∧ auction.owner ≠ player.guid ∧
      auction.bid < packet.bidAmount ∧ packet.bidAmount ≤ player.money := by
  unfold checkPlaceBid at h
  simp only [bind, Except.bind, pure, Except.pure, throw, throwThe, MonadExceptOf.throw] at h
  split at h
  · cases h
  split at h
  · split at h
    · rename_i faction _ _ found hfound
      split at h
      · cases h
      rename_i howner
      split at h
      · cases h
      split at h
      · cases h
      rename_i hbid
      split at h
      · cases h
      split at h
      · cases h
      rename_i hmoney
      cases h
      refine ⟨(getAuction_eq_some hfound).1, howner, ?_, ?_⟩
      · exact UInt64.not_le.mp fun hle => hbid (Or.inl hle)
      · simpa [Player.hasEnoughMoney] using hmoney
    · cases h
  · cases h

def Ends (config : AuctionConfig) (w : World) : AuctionCall → AuctionEntry → Prop
  | .placeBid guid packet, auction =>
    ∃ player, w.findConnectedPlayer guid = some player ∧
      w.checkPlaceBid config player packet = .ok auction ∧
      belowBuyout auction packet.bidAmount = false
  | .removeItem guid packet, auction =>
    ∃ player faction, w.findConnectedPlayer guid = some player ∧ packet.auctioneer = some faction ∧
      w.getAuction (config.auctionsMap faction) packet.auctionItemId = some auction ∧
      auction.owner = player.guid ∧ (w.aItems.find auction.itemGUIDLow).isSome = true ∧
      (auction.bidder ≠ 0 → player.hasEnoughMoney (config.auctionCut auction) = true)
  | .update house curTime, auction =>
    auction ∈ w.auctions.items ∧ auction.house = house ∧ auction.expireTime ≤ curTime + 60
  | _, _ => False

section Cases

variable {motive : World → Prop} {guid : Nat}

theorem findConnectedPlayer_eq_some {player : Player}
    (h : w.findConnectedPlayer guid = some player) :
    w.players.find player.guid = some player ∧ player.guid = guid := by
  obtain ⟨hfind, -⟩ := Option.filter_eq_some_iff.mp h
  obtain ⟨hmem, hguid⟩ := FlatSet.find_eq_some.mp hfind
  exact ⟨FlatSet.find_key hmem, hguid⟩

theorem handleAuctionSellItem_cases {packet : AuctionSellItem} {now : Nat} (hrefused : motive w)
    (hwhole : ∀ player posting, w.players.find player.guid = some player →
      checkSellItem config w player packet = .ok posting →
      motive ((w.addPosted config player packet posting posting.first.2 now).putPlayer
        { player with items := player.items.erase posting.first.2.guid }))
    (hmerged : ∀ player posting, w.players.find player.guid = some player →
      checkSellItem config w player packet = .ok posting →
      motive (({ w with nextItemGuid := w.nextItemGuid + 1 }.addPosted config player packet posting
        ⟨w.nextItemGuid, posting.first.2.entry,
          min posting.finalCount (config.maxStackCount posting.first.2.entry)⟩ now).putPlayer
        { player with items := posting.items.foldl takeSource player.items })) :
    motive (w.handleAuctionSellItem config guid packet now).1 := by
  unfold handleAuctionSellItem
  cases hplayer : w.findConnectedPlayer guid with
  | none => exact hrefused
  | some player =>
    have hfind := (findConnectedPlayer_eq_some hplayer).1
    dsimp only
    cases hchecked : checkSellItem config w player packet with
    | error result => exact hrefused
    | ok posting =>
      dsimp only [postAuction]
      split
      · exact hwhole player posting hfind hchecked
      unfold cloneItem
      split
      · exact hrefused
      rename_i hclone
      split at hclone
      · cases hclone
      · cases hclone
        exact hmerged player posting hfind hchecked

theorem handleAuctionPlaceBid_cases {packet : AuctionPlaceBid} (hrefused : motive w)
    (hbid : ∀ player auction, w.players.find player.guid = some player →
      w.auctions.find auction.id = some auction → auction.bid < packet.bidAmount →
      packet.bidAmount ≤ player.money → belowBuyout auction packet.bidAmount = true →
      motive (w.bid config player auction packet.bidAmount))
    (hbuyout : ∀ player auction, w.players.find player.guid = some player →
      player.guid = guid → w.auctions.find auction.id = some auction → auction.buyout ≠ 0 →
      auction.buyout ≤ player.money → w.Ends config (.placeBid guid packet) auction →
      motive (w.buyout config player auction)) :
    motive (w.handleAuctionPlaceBid config guid packet).1 := by
  unfold handleAuctionPlaceBid
  cases hplayer : w.findConnectedPlayer guid with
  | none => exact hrefused
  | some player =>
    obtain ⟨hfind, hguid⟩ := findConnectedPlayer_eq_some hplayer
    dsimp only
    cases hchecked : w.checkPlaceBid config player packet with
    | error result => exact hrefused
    | ok auction =>
      obtain ⟨hauction, -, hmore, howns⟩ := checkPlaceBid_ok hchecked
      dsimp only
      split
      · rename_i hbelow
        exact hbid player auction hfind hauction hmore howns hbelow
      rename_i hprice
      have hends : w.Ends config (.placeBid guid packet) auction :=
        ⟨player, hplayer, hchecked, by simpa using hprice⟩
      rw [belowBuyout, Bool.or_eq_true, decide_eq_true_eq, decide_eq_true_eq, not_or,
        UInt64.not_lt] at hprice
      exact hbuyout player auction hfind hguid hauction hprice.2
        (UInt64.le_trans hprice.1 howns) hends

theorem handleAuctionRemoveItem_cases {packet : AuctionRemoveItem} (hrefused : motive w)
    (hcancel : ∀ player auction item, w.players.find player.guid = some player →
      w.auctions.find auction.id = some auction →
      w.aItems.find auction.itemGUIDLow = some item →
      (auction.bidder ≠ 0 → config.auctionCut auction ≤ player.money) →
      w.Ends config (.removeItem guid packet) auction →
      motive ((((w.payCancel config player auction).sendAuctionCanceledMail player auction
        item).removeAItem auction.itemGUIDLow).removeAuction auction.id)) :
    motive (w.handleAuctionRemoveItem config guid packet).1 := by
  unfold handleAuctionRemoveItem
  split
  · rename_i player faction hplayer hfaction
    have hfind := (findConnectedPlayer_eq_some hplayer).1
    split
    · exact hrefused
    rename_i auction hauction
    split
    · exact hrefused
    rename_i howner
    split
    · exact hrefused
    rename_i item hitem
    split
    · exact hrefused
    rename_i hmoney
    have howns : auction.bidder ≠ 0 →
        player.hasEnoughMoney (config.auctionCut auction) = true := fun hbidder => by
      simpa [hbidder] using hmoney
    refine hcancel player auction item hfind (getAuction_eq_some hauction).1 hitem
      (fun hbidder => by simpa [Player.hasEnoughMoney] using howns hbidder)
      ⟨player, faction, hplayer, hfaction, hauction, not_not.mp howner, ?_, howns⟩
    rw [hitem, Option.isSome_some]
  · exact hrefused

theorem updateAuction_eq (config : AuctionConfig) (w : World) (curTime : Nat)
    (auction : AuctionEntry) : w.updateAuction config curTime auction = w ∨
      ∃ ended, SameBooks w ended ∧
        w.updateAuction config curTime auction = ended.removeAuction auction.id := by
  unfold updateAuction
  split
  · exact .inl rfl
  · split
    · exact .inr (endUnsold_eq config w auction)
    · exact .inr (endSold_eq config w auction)

theorem call_player {call : AuctionCall} (hplayer : (∃ amount, call = .spend guid amount) ∨
      call = .login guid ∨ call = .logout guid) (hcall : w.call config call = some w')
    (hnobody : motive w)
    (hput : ∀ owner changed, w.players.find owner.guid = some owner →
      changed.guid = owner.guid → changed.items = owner.items → changed.money ≤ owner.money →
      motive (w.putPlayer changed)) : motive w' := by
  have hchange : ∀ change : Player → Player, (∀ owner, (change owner).guid = owner.guid ∧
      (change owner).items = owner.items ∧ (change owner).money ≤ owner.money) →
      (w.players.find guid).elim (some w) (fun owner => some (w.putPlayer (change owner))) =
        some w' → motive w' := by
    intro change hsame hdone
    cases hfind : w.players.find guid with
    | none =>
      rw [hfind] at hdone
      cases hdone
      exact hnobody
    | some owner =>
      rw [hfind] at hdone
      cases hdone
      rw [← (FlatSet.find_eq_some.mp hfind).2] at hfind
      obtain ⟨hguid, hitems, hmoney⟩ := hsame owner
      exact hput owner _ hfind hguid hitems hmoney
  obtain ⟨amount, rfl⟩ | rfl | rfl := hplayer
  · refine hchange (fun owner => { owner with
      money := if amount ≤ owner.money then owner.money - amount else 0 }) ?_ hcall
    refine fun owner => ⟨rfl, rfl, ?_⟩
    split
    · rename_i howns
      rw [UInt64.le_iff_toNat_le] at howns ⊢
      rw [toNat_sub_of_le howns]
      omega
    · exact UInt64.zero_le
  · exact hchange (fun owner => { owner with connected := true, inWorld := true })
      (fun _ => ⟨rfl, rfl, UInt64.le_refl _⟩) hcall
  · exact hchange (fun owner => { owner with connected := false, inWorld := false })
      (fun _ => ⟨rfl, rfl, UInt64.le_refl _⟩) hcall

end Cases

/-- What each write of an auction keeps that has some datum of the one with its id, the
writes of several keep. -/
theorem putAuctions_keeps {P : World → Prop} {β : Type*} (datum : AuctionEntry → β)
    (hput : ∀ {w : World} {auction posted}, P w → w.auctions.find auction.id = some posted →
      datum auction = datum posted → P (w.putAuction auction))
    {w : World} (h : P w) {auctions : List AuctionEntry} (hall : ∀ auction ∈ auctions,
      ∃ posted, w.auctions.find auction.id = some posted ∧ datum auction = datum posted) :
    P (w.putAuctions auctions) := by
  induction auctions generalizing w with
  | nil => exact h
  | cons auction rest ih =>
    obtain ⟨posted, hfind, hdatum⟩ := hall auction List.mem_cons_self
    apply ih (hput h hfind hdatum)
    intro other hother
    obtain ⟨found, hfound, hsame⟩ := hall other (List.mem_cons_of_mem auction hother)
    rw [putAuction, FlatSet.find_put]
    by_cases hid : other.id = auction.id
    · rw [if_pos hid]
      refine ⟨auction, rfl, ?_⟩
      rw [hid, hfind, Option.some.injEq] at hfound
      rw [hsame, ← hfound, hdatum]
    · rw [if_neg hid]
      exact ⟨found, hfound, hsame⟩

end World

end LegionServer.Source.Auctions
