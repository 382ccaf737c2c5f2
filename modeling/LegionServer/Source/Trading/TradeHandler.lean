import LegionServer.Source.Guilds.Membership

/-!
# The data of a trade

`TradeData` of both partners (`TradeData.h:38-94`, `TradeData.cpp:25-153`) with the items and the
money that the operations read. A guid is its counter, and `rand32` draws from a given stream.
-/
namespace LegionServer.Source.Trading
open Source.Guilds

inductive Bonding where
  | none
  | onAcquire
  | onEquip
  | quest
  | other
  deriving DecidableEq, Repr

structure Item where
  guid : Nat
  pos : UInt16
  entry : UInt32
  count : Nat
  ownerGuid : Nat
  bonding : Bonding := .none
  soulBound : Bool := false
  bopTradeable : Bool := false
  allowedGuids : List Nat := []
  boundAccountWide : Bool := false
  lootGenerated : Bool := false
  isBag : Bool := false
  bagIsEmpty : Bool := true
  boundByEnchant : Bool := false
  /-- `owner->CanUnequipItem(GetPos(), false) != EQUIP_ERR_OK` -/
  cannotUnequip : Bool := false
  /-- `owner->GetLootGUID() == GetGUID()` -/
  looted : Bool := false
  inTrade : Bool := false
  deriving DecidableEq, Repr

/-- `Player::IsBagPos` -/
def isBagPos (pos : UInt16) : Bool :=
  let bag := pos >>> 8
  let slot := pos &&& 255
  bag = 255 && (19 ≤ slot && slot < 23 || 75 ≤ slot && slot < 82)

namespace Item

def canBeTraded (item : Item) (mail trade : Bool) : Bool :=
  if item.lootGenerated then false
  else if (!mail || !item.boundAccountWide) && (item.soulBound && (!item.bopTradeable || !trade)) then
    false
  else if item.isBag && (isBagPos item.pos || !item.bagIsEmpty) then false
  else if item.cannotUnequip then false
  else if item.looted then false
  else !item.boundByEnchant

def isBindedNotWith (item : Item) (player : Nat) : Bool :=
  if !item.soulBound then false
  else if item.ownerGuid = player then false
  else if item.bopTradeable && item.allowedGuids.contains player then false
  else !item.boundAccountWide

end Item

structure TradePlayer where
  guid : Nat
  money : UInt64
  items : List Item
  deriving DecidableEq, Repr

namespace TradePlayer

def getItemByGuid (player : TradePlayer) (guid : Nat) : Option Item :=
  player.items.find? (·.guid = guid)

def getItemByPos (player : TradePlayer) (pos : UInt16) : Option Item :=
  player.items.find? (·.pos = pos)

def hasEnoughMoney (player : TradePlayer) (amount : UInt64) : Bool := player.money ≥ amount

end TradePlayer

inductive Side where
  | initiator
  | target
  deriving DecidableEq, Repr

def Side.other : Side → Side
  | initiator => target
  | target => initiator

@[simp] theorem Side.other_other (side : Side) : side.other.other = side := by cases side <;> rfl

@[simp] theorem Side.other_ne (side : Side) : side.other ≠ side := by cases side <;> decide

@[simp] theorem Side.ne_other (side : Side) : side ≠ side.other := side.other_ne.symm

theorem Side.eq_or_other (side x : Side) : x = side ∨ x = side.other := by
  cases side <;> cases x <;> simp [Side.other]

abbrev TradeSlot := Fin 7

def TRADE_SLOT_NONTRADED : TradeSlot := 6

structure TradeData where
  accepted : Bool := false
  acceptProcess : Bool := false
  money : UInt64 := 0
  spell : UInt32 := 0
  spellCastItem : Option Nat := none
  items : TradeSlot → Option Nat := fun _ => none
  clientStateIndex : UInt32 := 1
  serverStateIndex : UInt32 := 1

namespace TradeData

variable (data : TradeData)

def getItem (player : TradePlayer) (slot : TradeSlot) : Option Item :=
  (data.items slot).bind player.getItemByGuid

def hasItem (itemGuid : Nat) : Bool :=
  (List.finRange 7).any fun i => data.items i = some itemGuid

def getTradeSlotForItem (itemGuid : Nat) : Option TradeSlot :=
  (List.finRange 7).find? fun i => data.items i = some itemGuid

def getSpellCastItem (player : TradePlayer) : Option Item :=
  data.spellCastItem.bind player.getItemByGuid

def hasSpellCastItem : Bool := data.spellCastItem.isSome

end TradeData

/-- The `TradeData` of both partners, and what `rand32` gives. -/
structure Trade where
  data : Side → TradeData
  random : Nat → UInt32
  drawn : Nat := 0

namespace Trade

variable (t : Trade) (side : Side)

def modify (f : TradeData → TradeData) : Trade :=
  { t with data := Function.update t.data side (f (t.data side)) }

def setAccepted (state : Bool) : Trade :=
  t.modify side fun data => { data with accepted := state }

def updateServerStateIndex : Trade :=
  { t.modify side fun data => { data with serverStateIndex := t.random t.drawn } with
    drawn := t.drawn + 1 }

def updateClientStateIndex : Trade :=
  t.modify side fun data => { data with clientStateIndex := data.clientStateIndex + 1 }

/-- The end of every change of an offer. -/
def changed : Trade :=
  ((t.setAccepted side false).setAccepted side.other false).updateServerStateIndex side

def setSpell (spellId : UInt32) (castItem : Option Nat) : Trade :=
  if (t.data side).spell = spellId ∧ (t.data side).spellCastItem = castItem then t
  else (t.modify side fun data =>
    { data with spell := spellId, spellCastItem := castItem }).changed side

def setItem (slot : TradeSlot) (item : Option Nat) (update : Bool) : Trade :=
  if (t.data side).items slot = item ∧ update = false then t
  else
    let t := (t.modify side fun data =>
      { data with items := Function.update data.items slot item }).changed side
    -- need remove possible trader spell applied to changed item
    let t := if slot = TRADE_SLOT_NONTRADED then t.setSpell side.other 0 none else t
    -- need remove possible player spell applied (possible move reagent)
    t.setSpell side 0 none

def setMoney (player : TradePlayer) (money : UInt64) : Trade :=
  if (t.data side).money = money then t
  else if player.hasEnoughMoney money = false then t
  else (t.modify side fun data => { data with money := money }).changed side

end Trade

/-!
# Trade requests

The requests of the two partners (`TradeHandler.cpp:109-541`, `543-757`) and what moves the goods
at the end. How items find room in an inventory is a parameter. A spell that is prepared at the
end of a trade belongs to the spell system.
-/

inductive InventoryResult where
  | ok
  | lootGone
  | notOwner
  | other (code : UInt8)
  deriving DecidableEq, Repr

/-- `ItemPosCountVec` -/
abbrev Dest := List (UInt16 × Nat)

structure Storage where
  /-- The tables that `CanStoreItems` fills. -/
  Space : Type
  /-- "filling inventory", of the items that are not in a trade -/
  space : TradePlayer → Space
  /-- The search for one of the items, after the checks of the item itself. -/
  place : TradePlayer → Space → Item → Except { result : InventoryResult // result ≠ .ok } Space
  /-- `CanStoreItem(NULL_BAG, NULL_SLOT, dest, item, false)` -/
  canStoreItem : TradePlayer → Dest → Item → InventoryResult × Dest

structure TradeWorld where
  players : Side → TradePlayer
  /-- `m_trade` of both -/
  trade : Option Trade
  /-- The next guid of an item. -/
  nextItemGuid : Nat

/-- `TRADE_SLOT_TRADED_COUNT` slots -/
def tradedSlot (i : Fin 6) : TradeSlot := i.castSucc

namespace TradePlayer

def canStoreItems (storage : Storage) (player : TradePlayer) (items : List (Option Item)) :
    InventoryResult :=
  let rec check (space : storage.Space) : List (Option Item) → InventoryResult
    | [] => .ok
    | none :: items => check space items
    | some item :: items =>
      if item.lootGenerated then .lootGone
      else if item.isBindedNotWith player.guid then .notOwner
      else
        match storage.place player space item with
        | .error result => result.1
        | .ok space => check space items
  check (storage.space player) items

def moveItemFromInventory (player : TradePlayer) (pos : UInt16) : TradePlayer :=
  { player with items := player.items.filter (·.pos ≠ pos) }

/-- `SetBinding` where an item is stored -/
def bound (pos : UInt16) (item : Item) : Item :=
  if item.bonding = .onAcquire ∨ item.bonding = .quest ∨ (item.bonding = .onEquip ∧ isBagPos pos)
  then { item with soulBound := true } else item

def cloneItem (item : Item) (guid : Nat) : Item :=
  { item with guid := guid, bopTradeable := false, allowedGuids := [] }

/-- `_StoreItem`; a clone has the guid. -/
def storeAt (player : TradePlayer) (pos : UInt16) (item : Item) (count : Nat)
    (clone : Option Nat) : TradePlayer :=
  match player.getItemByPos pos with
  | none =>
    let item := match clone with
      | none => item
      | some guid => cloneItem item guid
    { player with items := player.items ++
        [bound pos { item with count := count, pos := pos, ownerGuid := player.guid }] }
  | some _ =>
    { player with items := player.items.map fun other =>
        if other.pos = pos then { bound pos other with count := other.count + count } else other }

/-- `StoreItem`, with the next guid before and after -/
def storeItem (item : Item) : Dest → TradePlayer × Nat → TradePlayer × Nat
  | [], state => state
  | [(pos, count)], (player, guid) => (player.storeAt pos item count none, guid)
  | (pos, count) :: dest, (player, guid) =>
    storeItem item dest (player.storeAt pos item count (some guid), guid + 1)

/-- `SetInTrade` for the items with these guids -/
def setInTrade (player : TradePlayer) (guids : List Nat) (inTrade : Bool) : TradePlayer :=
  { player with items := player.items.map fun item =>
      if item.guid ∈ guids then { item with inTrade := inTrade } else item }

end TradePlayer

namespace TradeWorld

variable (storage : Storage) (w : TradeWorld) (side : Side)

def setPlayer (player : TradePlayer) : TradeWorld :=
  { w with players := Function.update w.players side player }

def moveItemToInventory (dest : Dest) (item : Item) : TradeWorld :=
  let (player, guid) := TradePlayer.storeItem item dest (w.players side, w.nextItemGuid)
  { w.setPlayer side player with nextItemGuid := guid }

/-- The way back of an item that could not be handed over. -/
def returnItem (dest : Dest) (item : Option Item) : TradeWorld :=
  match item with
  | none => w
  | some item =>
    match storage.canStoreItem (w.players side) dest item with
    | (.ok, dest) => w.moveItemToInventory side dest item
    | _ => w

/-- `CanStoreItem` for an item that is there -/
def canStore (item : Option Item) : InventoryResult × Dest :=
  match item with
  | none => (.ok, [])
  | some item => storage.canStoreItem (w.players side) [] item

def storeTraded (dest : Dest) (item : Option Item) : TradeWorld :=
  match item with
  | none => w
  | some item => w.moveItemToInventory side dest item

/-- One slot of `moveItems` -/
def moveItem (myItem hisItem : Option Item) : TradeWorld :=
  let (traderCanTrade, traderDst) := w.canStore storage side.other myItem
  let (playerCanTrade, playerDst) := w.canStore storage side hisItem
  if traderCanTrade = .ok ∧ playerCanTrade = .ok then
    (w.storeTraded side.other traderDst myItem).storeTraded side playerDst hisItem
  else
    -- return the already removed items to the original owner
    (w.returnItem storage side playerDst myItem).returnItem storage side.other traderDst hisItem

def moveItems (myItems hisItems : Fin 6 → Option Item) : TradeWorld :=
  (List.finRange 6).foldl (fun w i => w.moveItem storage side (myItems i) (hisItems i)) w

/-- `ModifyMoney`; nothing changes where it fails. -/
def modifyMoney (amount : Int64) : TradeWorld :=
  w.setPlayer side { w.players side with
    money := (Guilds.modifyMoney (w.players side).money amount).getD (w.players side).money }

/-- What `HandleAcceptTradeOpcode` asks the rest of the server: the distance, whether a spell is
known and what `CheckCast` says. -/
structure Surroundings where
  isWithinDistInMap : Bool
  getSpellInfo : Side → Bool
  checkCast : Side → Bool

/-- `trade->GetItem(TradeSlots(i))` of a traded slot -/
def tradedItem (t : Trade) (i : Fin 6) : Option Item :=
  (t.data side).getItem (w.players side) (tradedSlot i)

/-- "not accept if some items now can't be trade (cheating)" -/
def itemsTradeable (t : Trade) : Bool :=
  (List.finRange 6).all fun i =>
    (w.tradedItem side t i).all (fun item =>
      item.canBeTraded false true && !item.isBindedNotWith (w.players side.other).guid) &&
    (w.tradedItem side.other t i).all (·.canBeTraded false true)

/-- "not accept if spell can't be cast now (cheating)" -/
def spellFails (surroundings : Surroundings) (t : Trade) : Bool :=
  (t.data side).spell ≠ 0 && (!surroundings.getSpellInfo side ||
      ((t.data side.other).getItem (w.players side.other) TRADE_SLOT_NONTRADED).isNone ||
      ((t.data side).hasSpellCastItem && ((t.data side).getSpellCastItem (w.players side)).isNone) ||
      !surroundings.checkCast side)

def tradedGuids (t : Trade) : List Nat :=
  (List.finRange 6).filterMap fun i => (w.tradedItem side t i).map Item.guid

/-- `SetInTrade` on the items of both -/
def setInTrade (t : Trade) (inTrade : Bool) : TradeWorld :=
  { w with players := fun x => (w.players x).setInTrade (w.tradedGuids x t) inTrade }

/-- `SetInAcceptProcess` of both -/
def setInAcceptProcess (t : Trade) (state : Bool) : Trade :=
  { t with data := fun x => { t.data x with acceptProcess := state } }

/-- `CanStoreItems` for what a side receives -/
def canStoreTraded (t : Trade) : InventoryResult :=
  (w.players side).canStoreItems storage ((List.finRange 6).map (w.tradedItem side.other t))

/-- "execute trade: 1. remove" -/
def removeTraded (t : Trade) : TradeWorld :=
  { w with players := fun x =>
      (List.finRange 6).foldl (fun player i =>
        match w.tradedItem x t i with
        | none => player
        | some item => player.moveItemFromInventory item.pos) (w.players x) }

/-- "update money" -/
def updateMoney (t : Trade) : TradeWorld :=
  (((w.modifyMoney side (-(t.data side).money.toInt64)).modifyMoney side
    (t.data side.other).money.toInt64).modifyMoney side.other
      (-(t.data side.other).money.toInt64)).modifyMoney side.other (t.data side).money.toInt64

/-- "execute trade", to the end of both `TradeData` -/
def executeTrade (t : Trade) : TradeWorld :=
  let moved := (w.removeTraded t).moveItems storage side (w.tradedItem side t)
    (w.tradedItem side.other t)
  { moved.updateMoney side t with trade := none }

/-- `HandleAcceptTradeOpcode` from where both have accepted -/
def acceptTrade (surroundings : Surroundings) (t : Trade) : TradeWorld :=
  let t := setInAcceptProcess t true
  let marked := w.setInTrade t true
  let unmarked := marked.setInTrade t false
  if marked.spellFails side surroundings t then
    { unmarked with trade := some ((setInAcceptProcess t false).setSpell side 0 none) }
  else if marked.spellFails side.other surroundings t then
    { unmarked with trade := some (setInAcceptProcess (t.setSpell side.other 0 none) false) }
  else if marked.canStoreTraded storage side t ≠ .ok ∨
      marked.canStoreTraded storage side.other t ≠ .ok then
    let t := setInAcceptProcess t false
    { unmarked with trade := some ((t.setAccepted side false).setAccepted side.other false) }
  else unmarked.executeTrade storage side t

/-- `HandleAcceptTradeOpcode` -/
def handleAcceptTrade (surroundings : Surroundings) (stateIndex : UInt32) : TradeWorld :=
  match w.trade with
  | none => w
  | some t =>
    -- set before checks for propertly undo at problems (it already set in to client)
    let t := t.setAccepted side true
    if (t.data side.other).serverStateIndex ≠ stateIndex then
      { w with trade := some (t.setAccepted side false) }
    else if surroundings.isWithinDistInMap = false then
      { w with trade := some (t.setAccepted side false) }
    else if (w.players side).hasEnoughMoney (t.data side).money = false then
      { w with trade := some (t.setAccepted side false) }
    else if (w.players side.other).hasEnoughMoney (t.data side.other).money = false then
      { w with trade := some (t.setAccepted side.other false) }
    else if (w.players side).money > MAX_MONEY_AMOUNT - (t.data side.other).money then
      { w with trade := some (t.setAccepted side false) }
    else if (w.players side.other).money > MAX_MONEY_AMOUNT - (t.data side).money then
      { w with trade := some (t.setAccepted side.other false) }
    else if w.itemsTradeable side t = false then { w with trade := some t }
    else if (t.data side.other).accepted then w.acceptTrade storage side surroundings t
    else { w with trade := some t }

def handleUnacceptTrade : TradeWorld :=
  { w with trade := w.trade.map (·.setAccepted side false) }

def tradeCancel : TradeWorld := { w with trade := none }

def handleSetTradeGold (coinage : UInt64) : TradeWorld :=
  { w with trade := w.trade.map fun t =>
      (t.updateClientStateIndex side).setMoney side (w.players side) coinage }

def handleSetTradeItem (tradeSlot : UInt8) (pos : UInt16) : TradeWorld :=
  match w.trade with
  | none => w
  | some t =>
    if h : tradeSlot.toNat < 7 then
      let slot : TradeSlot := ⟨tradeSlot.toNat, h⟩
      match (w.players side).getItemByPos pos with
      | none => w
      | some item =>
        if slot ≠ TRADE_SLOT_NONTRADED ∧ item.canBeTraded false true = false then w
        -- prevent place single item into many trade slots using cheating and client bugs
        else if (t.data side).hasItem item.guid then w
        else
          let t := t.updateClientStateIndex side
          if slot ≠ TRADE_SLOT_NONTRADED ∧
              item.isBindedNotWith (w.players side.other).guid = true then { w with trade := some t }
          else { w with trade := some (t.setItem side slot (some item.guid) false) }
    else w

def handleClearTradeItem (tradeSlot : UInt8) : TradeWorld :=
  match w.trade with
  | none => w
  | some t =>
    let t := t.updateClientStateIndex side
    if h : tradeSlot.toNat < 7 then
      { w with trade := some (t.setItem side ⟨tradeSlot.toNat, h⟩ none false) }
    else { w with trade := some t }

/-- A cast on the item in the slot that is not traded, remembered until the trade completes. -/
def castOnTradeItem (spellId : UInt32) (castItem : Option Nat) : TradeWorld :=
  match w.trade with
  | none => w
  | some t =>
    if (t.data side).acceptProcess then w
    else { w with trade := some (t.setSpell side spellId castItem) }

/-- `Item::SetCount` of an item of the player -/
def setCount (guid count : Nat) : TradeWorld :=
  { w.setPlayer side { w.players side with
      items := (w.players side).items.map fun item =>
        if item.guid = guid then { item with count := count } else item } with
    trade := w.trade.map fun t =>
      match (t.data side).getTradeSlotForItem guid with
      | none => t
      | some slot => t.setItem side slot (some guid) true }

/-- The end of `HandleInitiateTradeOpcode` -/
def initiateTrade (random : Nat → UInt32) : TradeWorld :=
  match w.trade with
  | some _ => w
  | none => { w with trade := some { data := fun _ => {}, random := random } }

end TradeWorld

end LegionServer.Source.Trading
