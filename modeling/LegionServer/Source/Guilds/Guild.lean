import Mathlib.Data.List.Perm.Basic
import Mathlib.Data.List.Nodup

/-!
# Guild data: ranks, members, bank tabs

The part of `Guild` (`Guild.h:299-960`) that the rank, membership and bank
handlers read or write. Logs, news, packets, notes and database statements are
left out: nothing below reads them. A unit of `uint8` is a `UInt8`, so the
arithmetic on rank orders wraps as the source's does.
-/
namespace LegionServer.Source.Guilds

abbrev GuildRankId := UInt8
abbrev GuildRankOrder := UInt8

def GuildMaster : GuildRankId := 0

def GUILD_BANK_MAX_TABS : Nat := 8
def GUILD_BANK_MAX_SLOTS : Nat := 98
def GUILD_RANKS_MIN_COUNT : UInt8 := 2
def GUILD_RANKS_MAX_COUNT : UInt8 := 10
def TAB_UNDEFINED : UInt8 := 0xFF

def GR_RIGHT_GCHATLISTEN : UInt32 := 0x00000001
def GR_RIGHT_GCHATSPEAK : UInt32 := 0x00000002

def GUILD_BANK_RIGHT_VIEW_TAB : Int8 := 0x01
def GUILD_BANK_RIGHT_PUT_ITEM : Int8 := 0x02
def GUILD_BANK_RIGHT_DEPOSIT_ITEM : Int8 := GUILD_BANK_RIGHT_VIEW_TAB ||| GUILD_BANK_RIGHT_PUT_ITEM

structure GuildBankRightsAndSlots where
  tabId : UInt8 := TAB_UNDEFINED
  rights : Int8 := 0
  slots : Int32 := 0
  deriving DecidableEq, Repr

structure RankInfo where
  rankId : GuildRankId
  rankOrder : GuildRankOrder
  name : String
  rights : UInt32
  bankMoneyPerDay : UInt32
  bankTabRightsAndSlots : Fin GUILD_BANK_MAX_TABS → GuildBankRightsAndSlots := fun _ => {}

/-- `Guild::Member`; `bankWithdraw` counts today's withdrawals from each tab. -/
structure Member where
  rankId : GuildRankId
  bankWithdraw : Fin GUILD_BANK_MAX_TABS → UInt32 := fun _ => 0
  bankWithdrawMoney : UInt64 := 0

/-- `G` is the type of player guids; the members are a map from guids. -/
structure Guild (G : Type*) where
  leaderGuid : G
  ranks : List RankInfo
  members : G → Option Member
  bankMoney : UInt64 := 0

variable {G : Type*}

/-- `_GetRanksSize`: the cast to `uint8` is the source's. -/
def Guild.ranksSize (g : Guild G) : UInt8 := UInt8.ofNat g.ranks.length

/-- `GetRankInfo(GuildRankId)`. -/
def Guild.rankInfoOfId (g : Guild G) (rankId : GuildRankId) : Option RankInfo :=
  g.ranks.find? fun rank => rank.rankId == rankId

/-- `GetRankInfo(GuildRankOrder)`. -/
def Guild.rankInfoOfOrder (g : Guild G) (rankOrder : GuildRankOrder) : Option RankInfo :=
  g.ranks.find? fun rank => rank.rankOrder == rankOrder

def Member.isRank (m : Member) (rankId : GuildRankId) : Bool := m.rankId == rankId

/-- `_IsLeader`: the leader guid, or any member whose rank is the master rank. -/
def Guild.isLeader [DecidableEq G] (g : Guild G) (player : G) : Bool :=
  if player = g.leaderGuid then true
  else match g.members player with
    | some member => member.isRank GuildMaster
    | none => false

/-!
# Rank table handlers

`HandleAddNewRank`, `HandleRemoveRank`, `HandleShiftRank` and `_CreateRank`
(`Guild.cpp:1908-2015`, `3034-3063`). A rank's id names it, its order places it;
the two numberings are independent.
-/

/-- The `while` of `_CreateRank` that looks for a free rank id, cut off after
`fuel` ids; `uint8` holds 256 of them. -/
def freeRankIdFrom (g : Guild G) : Nat → GuildRankId → Option GuildRankId
  | 0, _ => none
  | fuel + 1, freeRankId =>
    if (g.rankInfoOfId freeRankId).isSome then freeRankIdFrom g fuel (freeRankId + 1)
    else some freeRankId

/-- `_CreateRank`; `none` when the search for a free id never ends. The source
adds the bank tabs to its local `info` after copying it into `m_ranks`, so the
stored rank keeps the default tab rights. -/
def createRank (g : Guild G) (name : String) (rights : UInt32) : Option (Guild G) :=
  if g.ranks.length ≥ GUILD_RANKS_MAX_COUNT.toNat then some g
  else
    match freeRankIdFrom g 256 0 with
    | none => none
    | some newRankId =>
      let info : RankInfo :=
        { rankId := newRankId, rankOrder := UInt8.ofNat g.ranks.length, name := name,
          rights := rights, bankMoneyPerDay := 0 }
      some { g with ranks := g.ranks ++ [info] }

section Handlers

variable [DecidableEq G]

def handleAddNewRank (g : Guild G) (player : G) (name : String) : Option (Guild G) :=
  if g.ranksSize ≥ GUILD_RANKS_MAX_COUNT then some g
  else if g.isLeader player then
    createRank g name (GR_RIGHT_GCHATLISTEN ||| GR_RIGHT_GCHATSPEAK)
  else some g

/-- "correct order of other ranks" in `HandleRemoveRank`. -/
def correctOrder (rankOrder : GuildRankOrder) (otherRank : RankInfo) : RankInfo :=
  if otherRank.rankOrder < rankOrder then otherRank
  else { otherRank with rankOrder := otherRank.rankOrder - 1 }

/-- The only guards are the leader check and the minimum count: the rank that
the order names may be any rank, the guild master's included. -/
def handleRemoveRank (g : Guild G) (player : G) (rankOrder : GuildRankOrder) : Guild G :=
  if g.ranksSize ≤ GUILD_RANKS_MIN_COUNT || !g.isLeader player then g
  else
    match g.rankInfoOfOrder rankOrder with
    | none => g
    | some _ =>
      { g with
        ranks := (g.ranks.eraseP fun rank => rank.rankOrder == rankOrder).map
          (correctOrder rankOrder) }

/-- `SetOrder` through the pointer that `GetRankInfo(order)` returned. -/
def setOrderAt (ranks : List RankInfo) (i : Nat) (rankOrder : GuildRankOrder) : List RankInfo :=
  ranks.modify i fun rank => { rank with rankOrder := rankOrder }

def handleShiftRank (g : Guild G) (player : G) (rankOrder : GuildRankOrder) (shiftUp : Bool) :
    Guild G :=
  if !g.isLeader player then g
  else
    let otherRankOrder := if shiftUp then rankOrder - 1 else rankOrder + 1
    match g.ranks.findIdx? fun rank => rank.rankOrder == rankOrder,
        g.ranks.findIdx? fun rank => rank.rankOrder == otherRankOrder with
    | some i, some j =>
      match g.ranks[i]?, g.ranks[j]? with
      | some rankInfo, some otherRankInfo =>
        if rankInfo.rankId == GuildMaster || otherRankInfo.rankId == GuildMaster then g
        else { g with ranks := setOrderAt (setOrderAt g.ranks i otherRankOrder) j rankOrder }
      | _, _ => g
    | _, _ => g

/-- A client's request on the rank table, with the player who sends it. -/
inductive RankRequest (G : Type*) where
  | addNewRank (player : G) (name : String)
  | removeRank (player : G) (rankOrder : GuildRankOrder)
  | shiftRank (player : G) (rankOrder : GuildRankOrder) (shiftUp : Bool)

/-- The handler's effect; `none` when it does not return. -/
def handleRankRequest (g : Guild G) : RankRequest G → Option (Guild G)
  | .addNewRank player name => handleAddNewRank g player name
  | .removeRank player rankOrder => some (handleRemoveRank g player rankOrder)
  | .shiftRank player rankOrder shiftUp => some (handleShiftRank g player rankOrder shiftUp)

end Handlers

end LegionServer.Source.Guilds
