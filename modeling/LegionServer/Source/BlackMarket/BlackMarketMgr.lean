import LegionServer.Library.KeyedRows
import LegionServer.Source.Guilds.Membership
import LegionServer.Library.Transition

/-!
# The black market

`BlackMarketEntry` and `BlackMarketMgr` (`BlackMarketMgr.cpp:94-342,399-525`,
`BlackMarketMgr.h:43-160`) with the table of auctions. The type of the remaining seconds is a
parameter: `uint32` in the source, the integers where a time that has run out is to stay run out.
Times are integers. The auctions stand in the order in which the map is iterated.
-/
namespace LegionServer.Source.BlackMarket
open Library

/-- A type that counts the remaining seconds; `ofInt` is the conversion of an assignment. -/
class Seconds (S : Type) where
  toInt : S → Int
  ofInt : Int → S

export Seconds (toInt ofInt)

instance : Seconds UInt32 where
  toInt seconds := seconds.toNat
  ofInt i := UInt32.ofNat (i % 2 ^ 32).toNat

instance : Seconds Int where
  toInt seconds := seconds
  ofInt i := i

def GOLD : UInt64 := 10000
def BMAH_MAX_BID : UInt64 := 1000000 * GOLD
def MINUTE : Int := 60

inductive BMAHMailAuctionAnswers where
  | BMAH_AUCTION_OUTBID
  | BMAH_AUCTION_WON
  deriving DecidableEq, Repr

structure BlackMarketTemplate where
  marketId : Int32
  sellerNpc : Int32
  quantity : Int32
  duration : Int
  itemId : UInt32
  bonusListIds : List Int32
  deriving DecidableEq, Repr

structure Item where
  entry : UInt32
  count : UInt32
  bonusListIds : List Int32
  ownerGuid : UInt64
  deriving DecidableEq, Repr

structure AuctionMailSubject where
  itemId : UInt32
  response : BMAHMailAuctionAnswers
  marketId : Int32
  quantity : Int32
  deriving DecidableEq, Repr

structure AuctionMailBody where
  sellerNpc : Int32
  currentBid : UInt64
  deriving DecidableEq, Repr

structure Mail where
  receiver : UInt64
  subject : AuctionMailSubject
  body : AuctionMailBody
  money : UInt64 := 0
  item : Option Item := none
  deriving DecidableEq, Repr

/-- A row of `blackmarket_auctions`, whose key is the market id. -/
structure AuctionRow where
  marketId : Int32
  currentBid : UInt64
  time : Int
  numBids : Int32
  bidder : UInt64
  deriving DecidableEq, Repr

/-- The characters at one moment: who is connected, and the account of each character in the
character cache. No character has the counter zero. -/
structure Characters where
  connected : UInt64 → Bool
  accountIdByGuid : UInt64 → UInt32
  connected_zero : connected 0 = false
  accountIdByGuid_zero : accountIdByGuid 0 = 0

structure Catalogue where
  templates : List BlackMarketTemplate
  nodup : (templates.map BlackMarketTemplate.marketId).Nodup
  maxStackSize : UInt32 → UInt32

variable {S : Type} [Seconds S]

structure BlackMarketEntry (S : Type) where
  marketId : Int32
  currentBid : UInt64 := 0
  numBids : Int32 := 0
  bidder : UInt64 := 0
  secondsRemaining : S
  mailSent : Bool := false
  deriving DecidableEq, Repr

variable (catalogue : Catalogue)

def createItem (itemEntry count : UInt32) : Option Item :=
  if count < 1 then none
  else some { entry := itemEntry, count := min count (catalogue.maxStackSize itemEntry)
              bonusListIds := [], ownerGuid := 0 }

def Catalogue.getTemplateById (marketId : Int32) : Option BlackMarketTemplate :=
  KeyedRows.rowOf BlackMarketTemplate.marketId catalogue.templates marketId

namespace BlackMarketEntry

def initializeEntry (marketId : Int32) (duration : UInt32) : BlackMarketEntry S :=
  { marketId, secondsRemaining := ofInt duration.toNat }

variable (entry : BlackMarketEntry S)

def update (lastUpdate newTimeOfUpdate : Int) : BlackMarketEntry S :=
  { entry with
    secondsRemaining := ofInt (toInt entry.secondsRemaining - (newTimeOfUpdate - lastUpdate)) }

def getSecondsRemaining (lastUpdate now : Int) : S :=
  ofInt (toInt entry.secondsRemaining - (now - lastUpdate))

def getExpirationTime (lastUpdate now : Int) : Int :=
  now + toInt (entry.getSecondsRemaining lastUpdate now)

def isCompleted (lastUpdate now : Int) : Bool :=
  toInt (entry.getSecondsRemaining lastUpdate now) ≤ 0

def getMinIncrement : UInt64 :=
  entry.currentBid / 20 - entry.currentBid / 20 % GOLD

def validateBid (bid : UInt64) : Bool :=
  if bid ≤ entry.currentBid then false
  else if bid < entry.currentBid + entry.getMinIncrement then false
  else if bid ≥ BMAH_MAX_BID then false
  else true

/-- The row that `SaveToDB` inserts. -/
def saveToDB (lastUpdate now : Int) : AuctionRow where
  marketId := entry.marketId
  currentBid := entry.currentBid
  time := entry.getExpirationTime lastUpdate now
  numBids := entry.numBids
  bidder := entry.bidder

/-- `BlackMarketEntry::LoadFromDB`; nothing where it returns false. -/
def loadFromDB (catalogue : Catalogue) (characters : Characters) (lastUpdate : Int)
    (row : AuctionRow) : Option (BlackMarketEntry S) :=
  if (catalogue.getTemplateById row.marketId).isNone then none
  else if row.bidder ≠ 0 ∧ characters.accountIdByGuid row.bidder = 0 then none
  else some
    { marketId := row.marketId
      currentBid := row.currentBid
      secondsRemaining := ofInt (row.time - lastUpdate)
      numBids := row.numBids
      bidder := row.bidder }

def buildAuctionMailSubject (templ : BlackMarketTemplate) (response : BMAHMailAuctionAnswers) :
    AuctionMailSubject where
  itemId := templ.itemId
  response := response
  marketId := entry.marketId
  quantity := templ.quantity

def buildAuctionMailBody (templ : BlackMarketTemplate) :
    AuctionMailBody where
  sellerNpc := templ.sellerNpc
  currentBid := entry.currentBid

end BlackMarketEntry

/-- `BlackMarketMgr` without its templates. -/
structure BlackMarketMgr (S : Type) where
  auctions : List (BlackMarketEntry S) := []
  lastUpdate : Int := 0
  deriving DecidableEq, Repr

structure World (S : Type) where
  mgr : BlackMarketMgr S := {}
  rows : List AuctionRow := []
  mails : List Mail := []
  deriving DecidableEq, Repr

/-- `SendAuctionWonMail`: the mail to send, if any. A template is there for every auction; the
source reads it without a test. -/
def auctionWonMail (characters : Characters) (entry : BlackMarketEntry S) : Option Mail :=
  if entry.mailSent then none
  else if !characters.connected entry.bidder && characters.accountIdByGuid entry.bidder == 0 then
    none
  else
    (catalogue.getTemplateById entry.marketId).bind fun templ =>
      (createItem catalogue templ.itemId templ.quantity.toUInt32).map fun item =>
        { receiver := entry.bidder
          subject := entry.buildAuctionMailSubject templ .BMAH_AUCTION_WON
          body := entry.buildAuctionMailBody templ
          item := some { item with
            bonusListIds := item.bonusListIds ++ templ.bonusListIds, ownerGuid := entry.bidder } }

/-- `SendAuctionOutbidMail`: the mail to send, if any. -/
def auctionOutbidMail (characters : Characters) (entry : BlackMarketEntry S) : Option Mail :=
  if !characters.connected entry.bidder && characters.accountIdByGuid entry.bidder == 0 then none
  else
    (catalogue.getTemplateById entry.marketId).map fun templ =>
      { receiver := entry.bidder
        subject := entry.buildAuctionMailSubject templ .BMAH_AUCTION_OUTBID
        body := entry.buildAuctionMailBody templ
        money := entry.currentBid }

namespace BlackMarketMgr

def getAuctionById (m : BlackMarketMgr S) (marketId : Int32) : Option (BlackMarketEntry S) :=
  KeyedRows.rowOf BlackMarketEntry.marketId m.auctions marketId

def addAuction (m : BlackMarketMgr S) (auction : BlackMarketEntry S) : BlackMarketMgr S :=
  { m with auctions := (m.auctions.filter fun e => e.marketId ≠ auction.marketId) ++ [auction] }

/-- The won mail that `Update` sends for an auction. -/
def wonMail (m : BlackMarketMgr S) (catalogue : Catalogue) (characters : Characters) (now : Int)
    (entry : BlackMarketEntry S) : Option Mail :=
  if entry.isCompleted m.lastUpdate now && entry.bidder != 0 then
    auctionWonMail catalogue characters entry
  else none

/-- What `Update` does to an auction. -/
def updateEntry (m : BlackMarketMgr S) (catalogue : Catalogue) (characters : Characters)
    (updateTime : Bool) (now : Int) (entry : BlackMarketEntry S) : BlackMarketEntry S :=
  let mailed := { entry with
    mailSent := entry.mailSent || (m.wonMail catalogue characters now entry).isSome }
  if updateTime then mailed.update m.lastUpdate now else mailed

/-- One row of the result in `LoadAuctions`, with the ids of the rows to delete. -/
def loadRow (catalogue : Catalogue) (characters : Characters) (now : Int)
    (loaded : BlackMarketMgr S × List Int32) (row : AuctionRow) : BlackMarketMgr S × List Int32 :=
  match (BlackMarketEntry.loadFromDB catalogue characters loaded.1.lastUpdate row :
      Option (BlackMarketEntry S)) with
  | none => (loaded.1, loaded.2 ++ [row.marketId])
  | some auction =>
    if auction.isCompleted loaded.1.lastUpdate now then (loaded.1, loaded.2 ++ [row.marketId])
    else (loaded.1.addAuction auction, loaded.2)

end BlackMarketMgr

/-- `INSERT`: the key of the table refuses a second row of a market. -/
def insertRow (rows : List AuctionRow) (row : AuctionRow) : List AuctionRow :=
  if row.marketId ∈ rows.map AuctionRow.marketId then rows else rows ++ [row]

/-- `UPDATE ... WHERE marketId = ?`. -/
def updateRow (rows : List AuctionRow) (row : AuctionRow) : List AuctionRow :=
  rows.map fun old => if old.marketId = row.marketId then row else old

/-- `DELETE ... WHERE marketId = ?`, for several ids. -/
def deleteRows (rows : List AuctionRow) (marketIds : List Int32) : List AuctionRow :=
  rows.filter fun row => row.marketId ∉ marketIds

structure Player where
  guid : UInt64
  money : UInt64
  deriving DecidableEq, Repr

namespace World

variable (w : World S)

/-- `BlackMarketMgr::Update`. -/
def update (catalogue : Catalogue) (characters : Characters) (updateTime : Bool) (now : Int) :
    World S :=
  { w with
    mgr.auctions := w.mgr.auctions.map (w.mgr.updateEntry catalogue characters updateTime now)
    mgr.lastUpdate := if updateTime then now else w.mgr.lastUpdate
    mails := w.mails ++ w.mgr.auctions.filterMap (w.mgr.wonMail catalogue characters now) }

/-- The completed auctions go, in `RefreshAuctions`. -/
def deleteCompleted (now : Int) : World S :=
  { w with
    mgr.auctions := w.mgr.auctions.filter fun e => !e.isCompleted w.mgr.lastUpdate now
    rows := deleteRows w.rows
      ((w.mgr.auctions.filter (·.isCompleted w.mgr.lastUpdate now)).map (·.marketId)) }

/-- One new auction, in `RefreshAuctions`. -/
def openAuction (now : Int) (w : World S) (templat : BlackMarketTemplate) : World S :=
  let entry : BlackMarketEntry S := .initializeEntry templat.marketId
    (ofInt templat.duration : UInt32)
  { w with
    mgr := w.mgr.addAuction entry
    rows := insertRow w.rows (entry.saveToDB w.mgr.lastUpdate now) }

/-- The templates for which an auction is opened. `chosen` tells which the rolls of their chances
and the random resize leave. -/
def newTemplates (catalogue : Catalogue) (chosen : BlackMarketTemplate → Bool) :
    List BlackMarketTemplate :=
  catalogue.templates.filter fun t => (w.mgr.getAuctionById t.marketId).isNone && chosen t

/-- `BlackMarketMgr::RefreshAuctions`. -/
def refreshAuctions (catalogue : Catalogue) (characters : Characters)
    (chosen : BlackMarketTemplate → Bool) (now : Int) : World S :=
  let w := w.deleteCompleted now
  ((w.newTemplates catalogue chosen).foldl (openAuction now) w).update catalogue characters true now

/-- `BlackMarketMgr::LoadAuctions`. -/
def loadAuctions (catalogue : Catalogue) (characters : Characters) (now : Int) : World S :=
  if w.rows.isEmpty then { w with mgr.auctions := [] }
  else
    let loaded := w.rows.foldl (BlackMarketMgr.loadRow catalogue characters now)
      ({ auctions := [], lastUpdate := now }, [])
    { w with mgr := loaded.1, rows := deleteRows w.rows loaded.2 }

def restart (catalogue : Catalogue) (characters : Characters) (now : Int) : World S :=
  { w with mgr := {} }.loadAuctions catalogue characters now

/-- The entry of an auction after `PlaceBid` has written it. -/
def bidEntry (entry : BlackMarketEntry S) (lastUpdate now : Int) (bid guid : UInt64) :
    BlackMarketEntry S :=
  { entry with
    currentBid := bid
    numBids := entry.numBids + 1
    secondsRemaining :=
      if toInt (entry.getSecondsRemaining lastUpdate now) < 30 * MINUTE then
        ofInt (toInt entry.secondsRemaining + 30 * MINUTE)
      else entry.secondsRemaining
    bidder := guid }

/-- `BlackMarketEntry::PlaceBid`, with the money that the player has after it. -/
def placeBid (catalogue : Catalogue) (characters : Characters) (now : Int)
    (entry : BlackMarketEntry S) (bid : UInt64) (player : Player) : World S × UInt64 :=
  if bid < entry.currentBid then (w, player.money)
  else
    let entry := bidEntry entry w.mgr.lastUpdate now bid player.guid
    ({ w with
        mgr.auctions := w.mgr.auctions.map fun (e : BlackMarketEntry S) =>
          if e.marketId = entry.marketId then entry else e
        rows := updateRow w.rows (entry.saveToDB w.mgr.lastUpdate now) }.update
      catalogue characters true now,
      (Guilds.modifyMoney player.money (-bid.toInt64)).getD player.money)

end World

/-!
# Calls of the black market

The timer of the world (`World.cpp:2623-2640`) updates the auctions or refreshes them, a start of
the server loads them, and `WorldSession::HandleBlackMarketBidOnItem`
(`BlackMarketHandler.cpp:69-126`) places bids.
-/

inductive BlackMarketError where
  | ERR_BMAH_OK
  | ERR_BMAH_ITEM_NOT_FOUND
  | ERR_BMAH_ALREADY_BID
  | ERR_BMAH_HIGHER_BID
  | ERR_BMAH_DATABASE_ERROR
  | ERR_BMAH_NOT_ENOUGH_MONEY
  deriving DecidableEq, Repr

/-- A call that concerns the whole market. -/
inductive MarketCall where
  | update (updateTime : Bool)
  | refreshAuctions (chosen : BlackMarketTemplate → Bool)
  | loadAuctions
  | restart

namespace World

def run (w : World S) (catalogue : Catalogue) (characters : Characters) (now : Int) :
    MarketCall → World S
  | .update updateTime => w.update catalogue characters updateTime now
  | .refreshAuctions chosen => w.refreshAuctions catalogue characters chosen now
  | .loadAuctions => w.loadAuctions catalogue characters now
  | .restart => w.restart catalogue characters now

/-- What came of a bid: the answer to the client, none where the packet is ignored, the world and
the money of the player. -/
structure BidResult (S : Type) where
  result : Option BlackMarketError
  world : World S
  money : UInt64

/-- `WorldSession::HandleBlackMarketBidOnItem`; `interacts` says that the market is enabled and
that the player stands at its creature. -/
def handleBlackMarketBidOnItem (w : World S) (catalogue : Catalogue) (characters : Characters)
    (now : Int) (interacts : Bool) (player : Player) (marketId : Int32) (bidAmount : UInt64) :
    BidResult S :=
  let answer (result : Option BlackMarketError) : BidResult S := ⟨result, w, player.money⟩
  if !interacts then answer none
  else match w.mgr.getAuctionById marketId with
  | none => answer (some .ERR_BMAH_ITEM_NOT_FOUND)
  | some entry =>
    if entry.bidder = player.guid then answer (some .ERR_BMAH_ALREADY_BID)
    else if !entry.validateBid bidAmount then answer (some .ERR_BMAH_HIGHER_BID)
    else if player.money < bidAmount then answer (some .ERR_BMAH_NOT_ENOUGH_MONEY)
    else if toInt (entry.getSecondsRemaining w.mgr.lastUpdate now) ≤ 0 then
      answer (some .ERR_BMAH_DATABASE_ERROR)
    else
      let w' := { w with
        mails := w.mails ++ (auctionOutbidMail catalogue characters entry).toList }
      let placed := w'.placeBid catalogue characters now entry bidAmount player
      ⟨some .ERR_BMAH_OK, placed.1, placed.2⟩

end World

end LegionServer.Source.BlackMarket
