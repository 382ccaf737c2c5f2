import Mathlib.Data.List.Basic

/-!
# Loot items, their visibility and their storing

`LootItem` and `Loot` (`Loot.cpp:42-207`, `755-938`, `1015-1043`) and
`Player::StoreLootItem` (`Player.cpp:25434-25505`). Template data, conditions
and inventories are answers that an operation receives; packets, criteria,
`PlayersLooting` and gold are left out, nothing here reads them.
-/
namespace LegionServer.Source.Looting

def MAX_NR_LOOT_ITEMS : Nat := 18

inductive LootMethod where
  | freeForAll | roundRobin | masterLoot | groupLoot | needBeforeGreed | personalLoot
  deriving DecidableEq, Repr

inductive LootSlotType where
  | allowLoot | rollOngoing | locked | master | owner
  deriving DecidableEq, Repr

/-- What a loot template entry passes to `AddItem`. `freeforall`,
`follow_loot_rules` and `maxStackSize` come from the item template. -/
structure LootStoreItem where
  itemid : Nat
  count : Nat
  needsQuest : Bool
  freeforall : Bool
  followLootRules : Bool
  maxStackSize : Nat

variable {G : Type*}

/-- The empty guid is `none`. -/
structure LootItem (G : Type*) where
  itemid : Nat
  lootListId : Nat
  allowedGUIDs : List G := []
  rollWinnerGUID : Option G := none
  count : Nat
  isLooted : Bool := false
  isBlocked : Bool := false
  freeforall : Bool
  isUnderthreshold : Bool := false
  isCounted : Bool := false
  needsQuest : Bool
  followLootRules : Bool

structure NotNormalLootItem where
  lootListId : Nat
  isLooted : Bool := false

inductive RollVote where
  | pass | need | greed | disenchant | notEmitedYet | notValid
  deriving DecidableEq, Repr

structure PlayerRollVote where
  vote : RollVote := .notValid
  rollNumber : Nat := 0
  deriving DecidableEq, Repr

/-- `m_lootItem` is the item at the key of the roll in `_rolls`; the vote map is
listed in its iteration order. -/
structure LootRoll (G : Type*) where
  rollVoteMap : List (G × PlayerRollVote) := []
  isStarted : Bool := false
  endTime : Nat := 0

structure Loot (G : Type*) where
  items : List (LootItem G) := []
  unlootedCount : UInt8 := 0
  roundRobinPlayer : Option G := none
  lootMethod : LootMethod
  lootMaster : Option G := none
  allowedLooters : List G := []
  wasOpened : Bool := false
  playerFFAItems : G → Option (List NotNormalLootItem) := fun _ => none
  rolls : List (Nat × LootRoll G) := []

/-- The stacks that the loop of `AddItem` makes of `count` items. -/
def addStacks (li : LootStoreItem) : Nat → Nat → List (LootItem G) → List (LootItem G)
  | 0, _, items => items
  | numStacks + 1, count, items =>
    if items.length < MAX_NR_LOOT_ITEMS then
      addStacks li numStacks (count - li.maxStackSize)
        (items ++ [{ itemid := li.itemid, lootListId := items.length
                     count := min count li.maxStackSize, freeforall := li.freeforall
                     needsQuest := li.needsQuest, followLootRules := li.followLootRules }])
    else items

variable (loot : Loot G)

/-- `AddItem`, with the count already drawn. -/
def Loot.addItem (li : LootStoreItem) : Loot G :=
  let numStacks := li.count / li.maxStackSize + if li.count % li.maxStackSize ≠ 0 then 1 else 0
  { loot with items := addStacks li numStacks li.count loot.items }

variable [DecidableEq G]

def LootItem.hasAllowedLooter (item : LootItem G) (looter : G) : Bool :=
  looter ∈ item.allowedGUIDs

def Loot.modifyItem (lootListId : Nat) (f : LootItem G → LootItem G) : Loot G :=
  { loot with items := loot.items.modify lootListId f }

/-- The rights of one player to one item in `FillNotNormalLootFor`. -/
def LootItem.fillFor (player : G) (allowedForPlayer : G → LootItem G → Bool) (item : LootItem G) :
    LootItem G :=
  if allowedForPlayer player item then
    { item with
      allowedGUIDs := if player ∈ item.allowedGUIDs then item.allowedGUIDs
        else item.allowedGUIDs ++ [player]
      isCounted := item.isCounted || !item.freeforall }
  else item

def Loot.fillNotNormalLootFor (allowedForPlayer : G → LootItem G → Bool) (loot : Loot G)
    (player : G) : Loot G :=
  let ffaItems := loot.items.filter fun item => allowedForPlayer player item && item.freeforall
  let counted := loot.items.filter fun item =>
    allowedForPlayer player item && (item.freeforall || !item.isCounted)
  { loot with
    allowedLooters := if player ∈ loot.allowedLooters then loot.allowedLooters
      else loot.allowedLooters ++ [player]
    items := loot.items.map (LootItem.fillFor player allowedForPlayer)
    unlootedCount := loot.unlootedCount + UInt8.ofNat counted.length
    playerFFAItems := if ffaItems.isEmpty then loot.playerFFAItems
      else Function.update loot.playerFFAItems player
        (some (ffaItems.map fun item => { lootListId := item.lootListId })) }

/-- The access rights of `FillLoot`: `quality` is the quality in the item's
template, if there is one. -/
def LootItem.setThreshold (lootMethod : LootMethod) (lootThreshold : Nat)
    (quality : Nat → Option Nat) (item : LootItem G) : LootItem G :=
  if !item.followLootRules || item.freeforall then item
  else
    match quality item.itemid with
    | none => item
    | some quality =>
      if quality < lootThreshold then { item with isUnderthreshold := true }
      else
        match lootMethod with
        | .masterLoot | .groupLoot | .needBeforeGreed => { item with isBlocked := true }
        | _ => item

/-- `FillLoot` for a group, after the template was processed. `members` are the
members at reward distance. -/
def Loot.fillGroup (isCorpse : Bool) (lootOwner : G) (members : List G) (lootThreshold : Nat)
    (quality : Nat → Option Nat) (allowedForPlayer : G → LootItem G → Bool) :
    Loot G :=
  let loot := if isCorpse then { loot with roundRobinPlayer := some lootOwner } else loot
  let loot := members.foldl (Loot.fillNotNormalLootFor allowedForPlayer) loot
  { loot with
    items := loot.items.map (LootItem.setThreshold loot.lootMethod lootThreshold quality) }

/-- `FillLoot` for one player. -/
def Loot.fillPersonal (lootOwner : G) (allowedForPlayer : G → LootItem G → Bool) : Loot G :=
  loot.fillNotNormalLootFor allowedForPlayer lootOwner

/-- `!roundRobinPlayer.IsEmpty() && roundRobinPlayer != player->GetGUID()`. -/
def Loot.roundRobinOther (player : G) : Bool :=
  loot.roundRobinPlayer.isSome && loot.roundRobinPlayer != some player

def LootItem.getUiTypeForPlayer (item : LootItem G) (player : G) (loot : Loot G) :
    Option LootSlotType :=
  if item.isLooted then none
  else if !item.hasAllowedLooter player then none
  else if item.freeforall then
    match loot.playerFFAItems player with
    | some ffaItems =>
      match ffaItems.find? fun ffaItem => ffaItem.lootListId = item.lootListId with
      | some ffaItem =>
        if ffaItem.isLooted then none
        else if loot.lootMethod = .freeForAll then some .owner else some .allowLoot
      | none => none
    | none => none
  else if item.needsQuest && !item.followLootRules then
    if loot.lootMethod = .freeForAll then some .owner else some .allowLoot
  else
    match loot.lootMethod with
    | .freeForAll => some .owner
    | .roundRobin => if loot.roundRobinOther player then none else some .allowLoot
    | .masterLoot =>
      if item.isUnderthreshold then
        if loot.roundRobinOther player then none else some .allowLoot
      else if loot.lootMaster = some player then some .master else some .locked
    | .groupLoot | .needBeforeGreed =>
      if item.isUnderthreshold && loot.roundRobinOther player then none
      else if item.isBlocked then some .rollOngoing
      else if item.rollWinnerGUID = none then some .allowLoot
      else if item.rollWinnerGUID = some player then some .owner
      else none
    | .personalLoot => some .owner

/-- The free-for-all entry that `LootItemInSlot` hands out for the player. -/
def Loot.ffaItem (loot : Loot G) (lootListId : Nat) (player : G) : Option NotNormalLootItem :=
  (loot.playerFFAItems player).bind fun ffaItems =>
    ffaItems.find? fun ffaItem => ffaItem.lootListId = lootListId

/-- `LootItemInSlot`: the item of the slot unless it is looted, for the player
if it is free for all. -/
def Loot.lootItemInSlot (lootListId : Nat) (player : G) : Option (LootItem G) :=
  match loot.items[lootListId]? with
  | none => none
  | some item =>
    let isLooted :=
      if item.freeforall then
        match loot.ffaItem lootListId player with
        | some ffaItem => ffaItem.isLooted
        | none => item.isLooted
      else item.isLooted
    if isLooted then none else some item

/-- Mark the item looted: for the player only if it is free for all. -/
def Loot.markLooted (lootListId : Nat) (item : LootItem G) (player : G) : Loot G :=
  let loot :=
    if item.freeforall then
      { loot with
        playerFFAItems := Function.update loot.playerFFAItems player
          ((loot.playerFFAItems player).map fun ffaItems =>
            ffaItems.modify (ffaItems.findIdx fun ffaItem => ffaItem.lootListId = lootListId)
              fun ffaItem => { ffaItem with isLooted := true }) }
    else loot.modifyItem lootListId fun item => { item with isLooted := true }
  { loot with unlootedCount := loot.unlootedCount - 1 }

/-- The checks that `StoreLootItem` and `AutoStore` share; `self` is the guid
that a roll winner is compared with. -/
def Loot.lootable (lootSlot : Nat) (player : G) (self : Option G) : Option (LootItem G) :=
  match loot.lootItemInSlot lootSlot player with
  | none => none
  | some item =>
    if item.isLooted || !item.hasAllowedLooter player || item.isBlocked ||
        (item.rollWinnerGUID.isSome && item.rollWinnerGUID != self) then none
    else some item

/-- `Player::StoreLootItem`: the item that was stored, if any. `canStoreNewItem`
is the answer of the player's inventory. -/
def Loot.storeLootItem (player : G) (lootSlot : Nat) (canStoreNewItem : Bool) :
    Loot G × Option (LootItem G) :=
  match loot.lootable lootSlot player (some player) with
  | none => (loot, none)
  | some item =>
    if canStoreNewItem then (loot.markLooted lootSlot item player, some item) else (loot, none)

/-- The loop of `Loot::AutoStore` from slot `i`: the loot, the stored items and
`allLooted`. A roll winner is compared with the guid of the loot itself, which
is no player's. -/
def Loot.autoStoreFrom (player : G) (canStoreNewItem : Nat → Bool) :
    Nat → Nat → Loot G → Loot G × List (LootItem G) × Bool
  | 0, _, loot => (loot, [], true)
  | fuel + 1, i, loot =>
    match loot.lootable i player none with
    | none => autoStoreFrom player canStoreNewItem fuel (i + 1) loot
    | some item =>
      if canStoreNewItem i then
        let (loot, stored, allLooted) :=
          autoStoreFrom player canStoreNewItem fuel (i + 1) (loot.markLooted i item player)
        (loot, item :: stored, allLooted)
      else
        let (loot, stored, _) := autoStoreFrom player canStoreNewItem fuel (i + 1) loot
        (loot, stored, false)

def Loot.autoStore (player : G) (canStoreNewItem : Nat → Bool) :
    Loot G × List (LootItem G) × Bool :=
  autoStoreFrom player canStoreNewItem loot.items.length 0 loot

/-!
# Group rolls

`LootRoll` (`Loot.cpp:394-612`), `Loot::OnLootOpened` (`695-736`) and
`Loot::Update` (`1004-1013`). The vote mask is left out: it is only sent to the
clients, `PlayerVote` does not check it.
-/

/-- `LOOT_ROLL_TIMEOUT`, in milliseconds. -/
def LOOT_ROLL_TIMEOUT : Nat := 60000

/-- What the code asks the rest of the server for during one operation. The
questions to inventories are told apart by the slot that is about to be stored,
since each slot is stored at most once in an operation. -/
structure Surroundings (G : Type*) where
  now : Nat
  /-- `ObjectAccessor::GetPlayer(map, guid)` finds the player. -/
  onMap : G → Bool
  /-- `FindConnectedPlayer(guid)` finds the player. -/
  connected : G → Bool
  passOnGroupLoot : G → Bool
  canStoreNewItem : Nat → G → Bool
  canStoreMaterial : Nat → Nat → Bool
  /-- `GetItemDisenchantLoot` for the item, and the loot generated from it. -/
  disenchantLoot : LootItem G → G → Option (Loot G)

inductive Reward (G : Type*) where
  | item (player : G)
  | disenchant (player : G) (stored mailed : List (LootItem G))

structure LootState (G : Type*) where
  loot : Loot G
  rewards : List (Nat × Reward G) := []

/-- `TryToStart` of a new roll: whether it started. A roll for at most one
player puts the item under the threshold instead. -/
def tryToStart (env : Surroundings G) (loot : Loot G) (lootListId : Nat) :
    Bool × Loot G × LootRoll G :=
  match loot.items[lootListId]? with
  | none => (false, loot, {})
  | some item =>
    let valid := fun looter => env.onMap looter && item.hasAllowedLooter looter
    let rollVoteMap := item.allowedGUIDs.map fun looter =>
      (looter, { vote :=
        if !valid looter then RollVote.notValid
        else if env.passOnGroupLoot looter then .pass else .notEmitedYet })
    if 1 < item.allowedGUIDs.countP valid then
      (true, loot.modifyItem lootListId fun item => { item with isBlocked := true },
        { rollVoteMap, isStarted := true, endTime := env.now + LOOT_ROLL_TIMEOUT })
    else
      (false, loot.modifyItem lootListId fun item =>
        { item with isUnderthreshold := true, isBlocked := false }, { rollVoteMap })

/-- The loop over the items in `OnLootOpened`. -/
def startRolls (env : Surroundings G) : List Nat → Loot G → Loot G
  | [], loot => loot
  | lootListId :: rest, loot =>
    match loot.items[lootListId]? with
    | none => startRolls env rest loot
    | some item =>
      if !item.isBlocked then startRolls env rest loot
      else
        match tryToStart env loot lootListId with
        | (true, loot, roll) =>
          startRolls env rest { loot with rolls := loot.rolls ++ [(lootListId, roll)] }
        | (false, loot, _) => startRolls env rest loot

def Loot.onLootOpened (env : Surroundings G) : Loot G :=
  if loot.wasOpened then loot
  else
    let loot := { loot with wasOpened := true }
    if loot.lootMethod = .groupLoot ∨ loot.lootMethod = .needBeforeGreed then
      startRolls env (List.range loot.items.length) loot
    else loot

/-- The write of `PlayerVote`: the first vote of a player on the list counts.
`draw` is the outcome of `urand(1, 100)`. -/
def castVote (player : G) (vote : RollVote) (draw : Nat) :
    List (G × PlayerRollVote) → List (G × PlayerRollVote)
  | [] => []
  | (looter, roll) :: rest =>
    if looter = player then
      if roll.vote = .notEmitedYet then
        (looter, { vote, rollNumber := if vote = .pass ∨ vote = .notValid then roll.rollNumber
          else draw }) :: rest
      else (looter, roll) :: rest
    else (looter, roll) :: castVote player vote draw rest

/-- `PlayerVote` on the roll of a slot. -/
def Loot.playerVote (player : G) (lootListId : Nat) (vote : RollVote) (draw : Nat) : Loot G :=
  { loot with rolls := loot.rolls.map fun roll =>
      if roll.1 = lootListId then
        (roll.1, { roll.2 with rollVoteMap := castVote player vote draw roll.2.rollVoteMap })
      else roll }

/-- `winnerItr == m_rollVoteMap.end() || itr->second.RollNumber > winnerItr->second.RollNumber`. -/
def PlayerRollVote.beats (roll : PlayerRollVote) : Option (G × PlayerRollVote) → Bool
  | none => true
  | some best => best.2.rollNumber < roll.rollNumber

/-- The loop of `AllPlayerVoted`: the number of missing votes and the winner. -/
def allPlayerVoted : List (G × PlayerRollVote) → Bool → Option (G × PlayerRollVote) →
    Nat × Option (G × PlayerRollVote)
  | [], _, winner => (0, winner)
  | (player, roll) :: rest, isSomeoneNeed, winner =>
    match roll.vote with
    | .need =>
      if !isSomeoneNeed || roll.beats winner then allPlayerVoted rest true (some (player, roll))
      else allPlayerVoted rest isSomeoneNeed winner
    | .greed | .disenchant =>
      if !isSomeoneNeed && roll.beats winner then allPlayerVoted rest isSomeoneNeed (some (player, roll))
      else allPlayerVoted rest isSomeoneNeed winner
    | .notEmitedYet =>
      let (notVoted, winner) := allPlayerVoted rest isSomeoneNeed winner
      (notVoted + 1, winner)
    | .pass | .notValid => allPlayerVoted rest isSomeoneNeed winner

/-- `Player::StoreLootItem`, with the item given to the player written down. -/
def LootState.storeLootItem (s : LootState G) (player : G) (lootSlot : Nat) (canStoreNewItem : Bool) :
    LootState G :=
  match s.loot.storeLootItem player lootSlot canStoreNewItem with
  | (loot, none) => { s with loot }
  | (loot, some _) => { loot, rewards := s.rewards ++ [(lootSlot, .item player)] }

/-- What is left in the disenchant loot is mailed. -/
def mailedItems (player : G) : List (LootItem G) :=
  (List.range loot.items.length).filterMap fun i => loot.lootItemInSlot i player

/-- `Finish`; fails where `ASSERT_NOTNULL(GetItemDisenchantLoot())` does. -/
def finish (env : Surroundings G) (lootListId : Nat) (winner : Option (G × PlayerRollVote))
    (s : LootState G) : Option (LootState G) :=
  let s := { s with loot := s.loot.modifyItem lootListId fun item =>
    { item with isBlocked := false } }
  match winner with
  | none => some s
  | some (player, roll) =>
    let s := { s with loot := s.loot.modifyItem lootListId fun item =>
      { item with rollWinnerGUID := some player } }
    if env.connected player then
      if roll.vote = .disenchant then
        match (s.loot.items[lootListId]?).bind fun item => env.disenchantLoot item player with
        | none => none
        | some loot =>
          let (loot, stored, allLooted) := loot.autoStore player (env.canStoreMaterial lootListId)
          let mailed := if allLooted then [] else mailedItems loot player
          -- "else m_loot->NotifyItemRemoved" tells the looters, the item stays in the loot
          some { s with rewards := s.rewards ++
            [(lootListId, .disenchant player stored mailed)] }
      else some (s.storeLootItem player lootListId (env.canStoreNewItem lootListId player))
    else some s

/-- The condition of `UpdateRoll`. -/
def LootRoll.due (roll : LootRoll G) (now : Nat) : Bool :=
  (allPlayerVoted roll.rollVoteMap false none).1 = 0 || roll.endTime ≤ now

def LootRoll.winner (roll : LootRoll G) : Option (G × PlayerRollVote) :=
  (allPlayerVoted roll.rollVoteMap false none).2

/-- The loop of `Update`: finished rolls are erased. -/
def updateRolls (env : Surroundings G) : List (Nat × LootRoll G) → LootState G →
    Option (List (Nat × LootRoll G) × LootState G)
  | [], s => some ([], s)
  | (lootListId, roll) :: rest, s =>
    if roll.due env.now then
      match finish env lootListId roll.winner s with
      | none => none
      | some s => updateRolls env rest s
    else
      match updateRolls env rest s with
      | none => none
      | some (rolls, s) => some ((lootListId, roll) :: rolls, s)

def LootState.update (s : LootState G) (env : Surroundings G) : Option (LootState G) :=
  match updateRolls env s.loot.rolls s with
  | none => none
  | some (rolls, s) => some { s with loot := { s.loot with rolls } }

end LegionServer.Source.Looting
