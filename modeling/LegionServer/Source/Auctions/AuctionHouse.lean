import LegionServer.Library.FlatSet
import LegionServer.Source.Guilds.Membership

/-!
# The auction house

The records (`AuctionHouseMgr.h:72-102`, `197-247`), the mails of the manager
(`AuctionHouseMgr.cpp:117-293`, with the part of `MailDraft::SendMailTo` that delivers), its
items (`387-409`) and the auctions of a house (`571-647`). Guids are their counters. An
auction id names the entry behind an `AuctionEntry*` too: ids are never given twice. The
packets to the players, the criteria and the logs are left out.
-/
namespace LegionServer.Source.Auctions
open Library Source.Guilds

def MINUTE : Nat := 60
def MIN_AUCTION_TIME : Nat := 12 * 60 * 60

/-- The three `AuctionHouseObject`s. -/
inductive House where
  | horde | alliance | neutral
  deriving DecidableEq

structure Item where
  guid : Nat
  entry : Nat
  count : Nat
  deriving DecidableEq

structure Player where
  guid : Nat
  account : Nat
  /-- Whether `FindConnectedPlayer` and `FindPlayer` find it. -/
  connected : Bool
  inWorld : Bool
  money : UInt64
  items : FlatSet Item.guid

/-- `ModifyMoney(-int64(amount))`; a failure leaves the money as it is. -/
def Player.pay (player : Player) (amount : UInt64) : Player :=
  { player with money := (modifyMoney player.money (-amount.toInt64)).getD player.money }

def Player.hasEnoughMoney (player : Player) (amount : UInt64) : Bool := player.money ≥ amount

structure AuctionEntry where
  id : Nat
  /-- The house whose `AuctionsMap` has it. -/
  house : House
  itemGUIDLow : Nat
  itemEntry : Nat
  itemCount : Nat
  owner : Nat
  startbid : UInt64
  bid : UInt64
  buyout : UInt64
  expireTime : Nat
  bidder : Nat
  deposit : UInt64
  etime : Nat
  auctionHouseEntry : Nat
  /-- What the owner has really paid for it, from its batch on; the code has no such field. -/
  charged : Option UInt64 := none
  deriving DecidableEq

inductive MailAuctionAnswers where
  | outbidded | won | successful | expired | cancelledToBidder | canceled | salePending
  deriving DecidableEq

/-- The amounts of `BuildAuctionMailBody`. -/
structure AuctionMailBody where
  lowGuid : Nat
  bid : UInt64
  buyout : UInt64
  deposit : UInt64
  cut : UInt64
  deriving DecidableEq

structure AuctionMail where
  receiver : Nat
  auction : Nat
  response : MailAuctionAnswers
  body : AuctionMailBody
  money : UInt64 := 0
  items : List Item := []
  /-- What had been paid for the auction when the mail was written. -/
  charged : Option UInt64 := none
  deriving DecidableEq

/-- An entry of `pendingAuctionMap`. -/
structure PlayerAuctions where
  player : Nat
  auctions : List Nat
  count : Nat
  deriving DecidableEq

structure AuctionConfig where
  /-- `GetAuctionHouseEntry` and `GetAuctionsMap` of the faction of an auctioneer. -/
  auctionHouseEntry : Nat → Option Nat
  auctionsMap : Nat → House
  /-- `GetAuctionDeposit` of a house, a time, an item and a count. -/
  auctionDeposit : Nat → Nat → Item → Nat → UInt64
  auctionCut : AuctionEntry → UInt64
  auctionOutBid : AuctionEntry → UInt64
  /-- A run time with `RATE_AUCTION_TIME`. -/
  auctionTime : Nat → Nat
  botCharacters : List Nat
  maxStackCount : Nat → Nat
  /-- `CanBeTraded`, no bag with contents, not conjured, and without a duration. -/
  canBeSold : Item → Bool

def AuctionConfig.isBotChar (config : AuctionConfig) (characterID : Nat) : Bool :=
  characterID == 0 || config.botCharacters.contains characterID

structure World where
  players : FlatSet Player.guid
  mails : List AuctionMail
  /-- The entries of the three `AuctionsMap`s. -/
  auctions : FlatSet AuctionEntry.id
  /-- `mAitems`. -/
  aItems : FlatSet Item.guid
  pending : FlatSet PlayerAuctions.player
  nextAuctionId : Nat
  nextItemGuid : Nat

namespace World

variable (config : AuctionConfig) (w : World)

def findConnectedPlayer (guid : Nat) : Option Player :=
  (w.players.find guid).filter fun player => player.connected

def findPlayer (guid : Nat) : Option Player :=
  (w.players.find guid).filter fun player => player.inWorld

/-- `GetCharacterAccountIdByGuid`. -/
def accountIdByGuid (guid : Nat) : Nat := (w.players.find guid).elim 0 fun player => player.account

/-- The condition under which the mails are sent. -/
def receiverExists (guid : Nat) : Bool :=
  ((w.findConnectedPlayer guid).isSome || w.accountIdByGuid guid != 0) && !config.isBotChar guid

def putPlayer (player : Player) : World := { w with players := w.players.put player }

def sendMailTo (mail : AuctionMail) : World := { w with mails := w.mails ++ [mail] }

/-- `RemoveAItem`; deleting the item of an entry only concerns the database. -/
def removeAItem (id : Nat) : World := { w with aItems := w.aItems.erase id }

def addAItem (item : Item) : World := { w with aItems := w.aItems.put item }

variable (auction : AuctionEntry)

def sendAuctionWonMail : World :=
  match w.aItems.find auction.itemGUIDLow with
  | none => w
  | some item =>
    if w.receiverExists config auction.bidder then
      w.sendMailTo
        { receiver := auction.bidder
          auction := auction.id
          response := .won
          body := ⟨auction.owner, auction.bid, auction.buyout, 0, 0⟩
          items := [item] }
    else w.removeAItem auction.itemGUIDLow

def sendAuctionSalePendingMail : World :=
  if w.receiverExists config auction.owner then
    w.sendMailTo
      { receiver := auction.owner
        auction := auction.id
        response := .salePending
        body := ⟨auction.bidder, auction.bid, auction.buyout, auction.deposit,
          config.auctionCut auction⟩ }
  else w

def sendAuctionSuccessfulMail : World :=
  if w.receiverExists config auction.owner then
    let profit := auction.bid + auction.deposit - config.auctionCut auction
    w.sendMailTo
      { receiver := auction.owner
        auction := auction.id
        response := .successful
        body := ⟨auction.bidder, auction.bid, auction.buyout, auction.deposit,
          config.auctionCut auction⟩
        money := profit
        charged := auction.charged }
  else w

def sendAuctionExpiredMail : World :=
  match w.aItems.find auction.itemGUIDLow with
  | none => w
  | some item =>
    if w.receiverExists config auction.owner then
      w.sendMailTo
        { receiver := auction.owner
          auction := auction.id
          response := .expired
          body := ⟨0, 0, auction.buyout, auction.deposit, 0⟩
          items := [item] }
    else w.removeAItem auction.itemGUIDLow

def sendAuctionOutbiddedMail : World :=
  if w.receiverExists config auction.bidder then
    w.sendMailTo
      { receiver := auction.bidder
        auction := auction.id
        response := .outbidded
        body := ⟨auction.owner, auction.bid, auction.buyout, auction.deposit,
          config.auctionCut auction⟩
        money := auction.bid }
  else w

def sendAuctionCancelledToBidderMail : World :=
  if w.receiverExists config auction.bidder then
    w.sendMailTo
      { receiver := auction.bidder
        auction := auction.id
        response := .cancelledToBidder
        body := ⟨auction.owner, auction.bid, auction.buyout, auction.deposit, 0⟩
        money := auction.bid }
  else w

/-- `AddAuction`; also any change of an entry in its place. -/
def putAuction : World := { w with auctions := w.auctions.put auction }

/-- `RemoveAuction`: the entry is deleted, the pending lists are not touched. -/
def removeAuction (id : Nat) : World := { w with auctions := w.auctions.erase id }

/-- `AuctionHouseObject::GetAuction`. -/
def getAuction (house : House) (id : Nat) : Option AuctionEntry :=
  (w.auctions.find id).filter fun auction => auction.house = house

def endUnsold : World :=
  ((w.sendAuctionExpiredMail config auction).removeAItem auction.itemGUIDLow).removeAuction
    auction.id

def endSold : World :=
  (((w.sendAuctionSuccessfulMail config auction).sendAuctionWonMail config
    auction).removeAItem auction.itemGUIDLow).removeAuction auction.id

/-- The body of the loop of `AuctionHouseObject::Update`. -/
def updateAuction (curTime : Nat) (auction : AuctionEntry) : World :=
  if auction.expireTime > curTime + 60 then w
  else if auction.bidder = 0 ∧ auction.bid = 0 then w.endUnsold config auction
  else w.endSold config auction

/-- `AuctionHouseObject::Update`. An entry is changed by its own turn only. -/
def updateHouse (house : House) (curTime : Nat) : World :=
  (w.auctions.items.filter fun auction => auction.house = house).foldl
    (fun w auction => w.updateAuction config curTime auction) w

end World

end LegionServer.Source.Auctions
