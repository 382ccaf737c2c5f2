import Mathlib.Algebra.Order.BigOperators.Group.Finset
import LegionServer.Source.Guilds.Guild

/-!
# Guild bank money

Deposits, withdrawals and the daily reset (`Guild.cpp:2017-2101`, `697-718`,
`3097-3114`, `3201-3214`, `3571-3583`), with `Player::ModifyMoney`. Amounts are
`uint64`, remaining money is `int64`. Scripts leave the amounts alone.
-/
namespace LegionServer.Source.Guilds
open Int64

def MAX_MONEY_AMOUNT : UInt64 := 99999999999
def GUILD_BANK_MONEY_LIMIT : UInt64 := 100000000000
def GUILD_WITHDRAW_MONEY_UNLIMITED : UInt32 := 0xFFFFFFFF

def GR_RIGHT_NONE : UInt32 := 0x00000000
def GR_RIGHT_WITHDRAW_REPAIR : UInt32 := 0x00040000
def GR_RIGHT_WITHDRAW_GOLD : UInt32 := 0x00080000

/-- `std::numeric_limits<int64>::max()`. -/
def int64Max : Int64 := 9223372036854775807

variable {G : Type*}

def RankInfo.getBankMoneyPerDay (rank : RankInfo) : UInt32 :=
  if rank.rankId ≠ GuildMaster then rank.bankMoneyPerDay else GUILD_WITHDRAW_MONEY_UNLIMITED

namespace Guild

/-- `_GetRankRights`. -/
def rankRights (g : Guild G) (rankId : GuildRankId) : UInt32 :=
  match g.rankInfoOfId rankId with
  | some rank => rank.rights
  | none => 0

/-- `_GetRankBankMoneyPerDay`. -/
def rankBankMoneyPerDay (g : Guild G) (rankId : GuildRankId) : UInt32 :=
  match g.rankInfoOfId rankId with
  | some rank => rank.getBankMoneyPerDay
  | none => 0

def hasRankRight (g : Guild G) (player : G) (right : UInt32) : Bool :=
  match g.members player with
  | some member => g.rankRights member.rankId &&& right != GR_RIGHT_NONE
  | none => false

/-- `_GetMemberRemainingMoney`. The difference is taken in `uint64`. -/
def memberRemainingMoney (g : Guild G) (member : Member) : Int64 :=
  if member.rankId = GuildMaster then int64Max
  else if g.rankRights member.rankId &&& (GR_RIGHT_WITHDRAW_REPAIR ||| GR_RIGHT_WITHDRAW_GOLD) ≠ 0 then
    let remaining :=
      ((g.rankBankMoneyPerDay member.rankId).toUInt64 - member.bankWithdrawMoney).toInt64
    if remaining > 0 then remaining else 0
  else 0

end Guild

/-- `Player::ModifyMoney` on the money of a player; `none` is the failure. -/
def modifyMoney (money : UInt64) (amount : Int64) : Option UInt64 :=
  if amount = 0 then some money
  else if amount < 0 then
    some (if money > (-amount).toUInt64 then money + amount.toUInt64 else 0)
  else if money ≤ MAX_MONEY_AMOUNT - amount.toUInt64 then some (money + amount.toUInt64)
  else none

structure Treasury (G : Type*) where
  guild : Guild G
  money : G → UInt64

namespace Treasury

variable (t : Treasury G)

def modifyBankMoney (amount : UInt64) (add : Bool) : Treasury G :=
  if add then { t with guild := { t.guild with bankMoney := t.guild.bankMoney + amount } }
  else if t.guild.bankMoney < amount then t
  else { t with guild := { t.guild with bankMoney := t.guild.bankMoney - amount } }

theorem modifyBankMoney_take {t : Treasury G} {amount : UInt64}
    (henough : ¬ t.guild.bankMoney < amount) :
    t.modifyBankMoney amount false =
      { t with guild := { t.guild with bankMoney := t.guild.bankMoney - amount } } := by
  unfold modifyBankMoney
  rw [if_neg Bool.false_ne_true, if_neg henough]

variable [DecidableEq G]

def setMoney (player : G) (money : UInt64) : Treasury G :=
  { t with money := Function.update t.money player money }

def updateBankMoneyWithdrawValue (player : G) (member : Member) (amount : UInt64) : Treasury G :=
  { t with
    guild :=
      { t.guild with
        members := Function.update t.guild.members player
          (some { member with bankWithdrawMoney := member.bankWithdrawMoney + amount }) } }

/-- `HandleMemberDepositMoney` without cash flow. -/
def handleMemberDepositMoney (player : G) (amount : UInt64) : Treasury G :=
  let amount := min amount (MAX_MONEY_AMOUNT - t.guild.bankMoney)
  if amount = 0 then t
  else if t.guild.bankMoney > GUILD_BANK_MONEY_LIMIT - amount then t
  else
    let t := t.modifyBankMoney amount true
    match modifyMoney (t.money player) (-amount.toInt64) with
    | some money => t.setMoney player money
    | none => t

/-- `repair ? GR_RIGHT_WITHDRAW_REPAIR : GR_RIGHT_WITHDRAW_GOLD`. -/
def withdrawRight (repair : Bool) : UInt32 :=
  if repair then GR_RIGHT_WITHDRAW_REPAIR else GR_RIGHT_WITHDRAW_GOLD

/-- `HandleMemberWithdrawMoney`, and whether it succeeds. -/
def handleMemberWithdrawMoney (player : G) (amount : UInt64) (repair : Bool) : Treasury G × Bool :=
  let amount := min amount MAX_MONEY_AMOUNT
  if t.guild.bankMoney < amount then (t, false)
  else
    match t.guild.members player with
    | none => (t, false)
    | some member =>
      if !t.guild.hasRankRight player (withdrawRight repair) then (t, false)
      else if t.guild.memberRemainingMoney member < amount.toInt64 then (t, false)
      else if repair then
        ((t.updateBankMoneyWithdrawValue player member amount).modifyBankMoney amount false, true)
      else
        match modifyMoney (t.money player) amount.toInt64 with
        | none => (t, false)
        | some money =>
          (((t.setMoney player money).updateBankMoneyWithdrawValue player member
            amount).modifyBankMoney amount false, true)

/-- `ResetTimes`: all members' withdrawals of the day. -/
def resetTimes : Treasury G :=
  { t with
    guild :=
      { t.guild with
        members := fun player => (t.guild.members player).map fun member =>
          { member with bankWithdraw := fun _ => 0, bankWithdrawMoney := 0 } } }

end Treasury

section amounts

theorem toInt_of_small (amount : UInt64) (h : amount.toNat < 2 ^ 63) :
    amount.toInt64.toInt = amount.toNat := by
  apply BitVec.toInt_eq_toNat_of_lt
  change 2 * amount.toNat < 2 ^ 64
  omega

variable {amount : UInt64}

theorem small_of_le_max (h : amount ≤ MAX_MONEY_AMOUNT) : amount.toNat ≤ 99999999999 := by
  rw [UInt64.le_iff_toNat_le] at h
  simpa [MAX_MONEY_AMOUNT] using h

theorem toNat_sub_of_le {a b : UInt64} (h : b.toNat ≤ a.toNat) :
    (a - b).toNat = a.toNat - b.toNat := by
  rw [UInt64.toNat_sub_of_le]
  rwa [UInt64.le_iff_toNat_le]

variable {money : UInt64}

theorem modifyMoney_pay (hsmall : amount ≤ MAX_MONEY_AMOUNT) (howns : amount.toNat ≤ money.toNat) :
    ∃ rest, modifyMoney money (-amount.toInt64) = some rest ∧
      rest.toNat + amount.toNat = money.toNat := by
  have hle := small_of_le_max hsmall
  have hint := toInt_of_small amount (by omega)
  have hneg : (-amount.toInt64).toInt = -(amount.toNat : Int) := by
    rw [toInt_neg, hint, Int.bmod_eq_of_le] <;> omega
  unfold modifyMoney
  by_cases hzero : amount.toNat = 0
  · have hnone : -amount.toInt64 = 0 := by
      rw [← toInt_inj, hneg, hzero]
      rfl
    rw [if_pos hnone]
    exact ⟨money, rfl, by omega⟩
  · have hsome : -amount.toInt64 ≠ 0 := by
      rw [ne_eq, ← toInt_inj, hneg]
      change -(amount.toNat : Int) ≠ 0
      omega
    have hpays : -amount.toInt64 < 0 := by
      rw [lt_iff_toInt_lt, hneg]
      change -(amount.toNat : Int) < 0
      omega
    have hsame : (- -amount.toInt64).toUInt64 = amount := by simp
    rw [if_neg hsome, if_pos hpays, hsame]
    by_cases hmore : money > amount
    · rw [if_pos hmore]
      refine ⟨_, rfl, ?_⟩
      change (money + -amount).toNat + amount.toNat = money.toNat
      rw [← UInt64.sub_eq_add_neg, toNat_sub_of_le howns]
      omega
    · rw [if_neg hmore]
      refine ⟨0, rfl, ?_⟩
      rw [gt_iff_lt, UInt64.lt_iff_toNat_lt] at hmore
      change 0 + amount.toNat = money.toNat
      omega

theorem modifyMoney_receive {received : UInt64} (hsmall : amount ≤ MAX_MONEY_AMOUNT)
    (hcap : money ≤ MAX_MONEY_AMOUNT) (h : modifyMoney money amount.toInt64 = some received) :
    received.toNat = money.toNat + amount.toNat ∧ received ≤ MAX_MONEY_AMOUNT := by
  have hle := small_of_le_max hsmall
  have hint := toInt_of_small amount (by omega)
  unfold modifyMoney at h
  split at h
  · rename_i hnone
    rw [← toInt_inj, hint] at hnone
    change (amount.toNat : Int) = 0 at hnone
    cases h
    exact ⟨by omega, hcap⟩
  · split at h
    · rename_i hneg
      rw [lt_iff_toInt_lt, hint] at hneg
      change (amount.toNat : Int) < 0 at hneg
      omega
    · split at h
      · rename_i hroom
        cases h
        change money ≤ MAX_MONEY_AMOUNT - amount at hroom
        rw [UInt64.le_iff_toNat_le, toNat_sub_of_le hsmall] at hroom
        have hmax : MAX_MONEY_AMOUNT.toNat = 99999999999 := rfl
        have hsum : (money + amount).toNat = money.toNat + amount.toNat := by
          rw [UInt64.toNat_add, Nat.mod_eq_of_lt]
          omega
        change (money + amount).toNat = _ ∧ money + amount ≤ MAX_MONEY_AMOUNT
        rw [UInt64.le_iff_toNat_le, hsum]
        omega
      · cases h

/-- What is left of the day's limit, while it is not exceeded. -/
theorem memberRemainingMoney_covers {g : Guild G} {member : Member}
    (hmaster : member.rankId ≠ GuildMaster) (hsmall : amount ≤ MAX_MONEY_AMOUNT)
    (hwithin : member.bankWithdrawMoney.toNat ≤ (g.rankBankMoneyPerDay member.rankId).toNat)
    (hcovers : ¬ g.memberRemainingMoney member < amount.toInt64) :
    member.bankWithdrawMoney.toNat + amount.toNat ≤
      (g.rankBankMoneyPerDay member.rankId).toNat := by
  have hle := small_of_le_max hsmall
  have hint := toInt_of_small amount (by omega)
  rw [lt_iff_toInt_lt, hint] at hcovers
  have hnothing : ¬ (0 : Int64).toInt < amount.toNat → amount.toNat = 0 := by
    intro hnot
    change ¬ (0 : Int) < amount.toNat at hnot
    omega
  unfold Guild.memberRemainingMoney at hcovers
  rw [if_neg hmaster] at hcovers
  split at hcovers
  · dsimp only at hcovers
    split at hcovers
    · have hlimit := (g.rankBankMoneyPerDay member.rankId).toNat_lt
      have hwide : (g.rankBankMoneyPerDay member.rankId).toUInt64.toNat =
          (g.rankBankMoneyPerDay member.rankId).toNat := UInt32.toNat_toUInt64 _
      have hdiff : ((g.rankBankMoneyPerDay member.rankId).toUInt64 -
          member.bankWithdrawMoney).toNat = _ := toNat_sub_of_le (by rwa [hwide])
      rw [toInt_of_small _ (by omega), hdiff, hwide] at hcovers
      omega
    · have := hnothing hcovers
      omega
  · have := hnothing hcovers
    omega

end amounts

/-!
# Guild leadership and membership

Creation, joining, leaving, removal, promotion, demotion and the change of the
guild master (`Guild.cpp:1122-1190`, `1507-1552`, `1727-1906`, `2117-2126`,
`2717-2863`, `3015-3034`, `3116-3132`). What a handler dereferences or asserts is an
error here when it is missing.
-/

def GR_RIGHT_REMOVE : UInt32 := 0x00000020
def GR_RIGHT_PROMOTE : UInt32 := 0x00000080
def GR_RIGHT_DEMOTE : UInt32 := 0x00000100
def GR_RIGHT_ALL : UInt32 := 0x00DDFFBF
def GUILD_MASTER_DETHRONE_INACTIVE_DAYS : UInt32 := 90

/-- A guild whose `m_members` are met in the order of `guids`. -/
structure Roster (G : Type) where
  guild : Guild G
  guids : List G

/-- What stops a handler: a null `GetRankInfo` or `GetMember` is dereferenced, an
assertion fails, `m_ranks.back()` is taken of no ranks, or `_CreateRank` never ends. -/
inductive GuildFault where
  | nullRank | nullMember | assertion | noRanks | endless
  deriving DecidableEq

/-- A handler leaves a guild, or has disbanded it. -/
inductive Answer (G : Type) where
  | stays (r : Roster G)
  | disbanded

variable {G : Type}

def Member.changeRank (m : Member) (newRank : GuildRankId) : Member := { m with rankId := newRank }

/-- `_GetLowestRankId`: the back of `m_ranks`, whatever its order. -/
def Guild.lowestRankId (g : Guild G) : Except GuildFault GuildRankId :=
  match g.ranks.getLast? with
  | some rank => .ok rank.rankId
  | none => .error .noRanks

/-- A dereferenced `GetRankInfo`. -/
def Guild.derefRank (g : Guild G) (rankId : GuildRankId) : Except GuildFault RankInfo :=
  match g.rankInfoOfId rankId with
  | some rank => .ok rank
  | none => .error .nullRank

/-- A dereferenced or asserted `GetMember`. -/
def Guild.derefMember (g : Guild G) (guid : G) (fault : GuildFault) : Except GuildFault Member :=
  match g.members guid with
  | some member => .ok member
  | none => .error fault

namespace Roster

variable (r : Roster G)

/-- `GetMember(std::string_view)`: the first member met with the name. -/
def memberNamed (nameOf : G → String) (name : String) : Option G :=
  r.guids.find? fun guid => nameOf guid == name

/-- The rank id of a guid met in `m_members`. -/
def rankIdOf (guid : G) : GuildRankId :=
  match r.guild.members guid with
  | some member => member.rankId
  | none => 0xFF

variable [DecidableEq G]

/-- `ChangeRank` on the member `guid` of `m_members`. -/
def changeRank (r : Roster G) (guid : G) (newRank : GuildRankId) : Roster G :=
  { r with
    guild :=
      { r.guild with
        members := Function.update r.guild.members guid
          ((r.guild.members guid).map fun member => member.changeRank newRank) } }

def setLeader (leader : G) : Roster G :=
  changeRank { r with guild := { r.guild with leaderGuid := leader } } leader GuildMaster

/-- `m_members.erase`. -/
def erase (r : Roster G) (guid : G) : Roster G where
  guild := { r.guild with members := Function.update r.guild.members guid none }
  guids := r.guids.erase guid

/-- `AddMember`: `inGuild` tells whether the character is in a guild, `loaded`
whether it is online or its data could be loaded. -/
def addMember (guid : G) (inGuild loaded : Bool) (rankId : Option GuildRankId) :
    Except GuildFault (Roster G × Bool) :=
  if inGuild then .ok (r, false)
  else do
    let rankId ← match rankId with
      | some rankId => .ok rankId
      | none => r.guild.lowestRankId
    if (r.guild.members guid).isSome then return (r, false)
    if !loaded then return (r, false)
    return ({ guild :=
                { r.guild with
                  members := Function.update r.guild.members guid (some { rankId := rankId }) }
              guids := guid :: r.guids }, true)

/-- One member of the search for `newLeader` in `DeleteMember`. -/
def nextLeader (guid : G) (newLeader : Option G) (memberGuid : G) : Option G :=
  if memberGuid = guid then newLeader
  else
    match newLeader with
    | none => some memberGuid
    | some best => if r.rankIdOf best > r.rankIdOf memberGuid then some memberGuid else newLeader

/-- Another member of the smallest rank id, the first of them in `m_members`. -/
def newLeader (guid : G) : Option G := r.guids.foldl (r.nextLeader guid) none

/-- `DeleteMember` of a guild that is not being disbanded. -/
def deleteMember (guid : G) : Answer G :=
  if r.guild.leaderGuid = guid then
    match r.newLeader guid with
    | none => .disbanded
    | some newLeader => .stays ((r.setLeader newLeader).erase guid)
  else .stays (r.erase guid)

def handleLeaveMember (player : G) : Except GuildFault (Answer G) :=
  if r.guild.isLeader player then
    if r.guids.length > 1 then .ok (.stays r) else .ok .disbanded
  else do
    let _ ← r.guild.derefMember player .nullMember
    return r.deleteMember player

def handleRemoveMember (player guid : G) : Except GuildFault (Answer G) :=
  if !r.guild.hasRankRight player GR_RIGHT_REMOVE then .ok (.stays r)
  else
    match r.guild.members guid with
    | none => .ok (.stays r)
    | some member =>
      if member.isRank GuildMaster then .ok (.stays r)
      else do
        let memberMe ← r.guild.derefMember player .nullMember
        let myRank ← r.guild.derefRank memberMe.rankId
        let targetRank ← r.guild.derefRank member.rankId
        if targetRank.rankOrder ≤ myRank.rankOrder then return .stays r
        return r.deleteMember guid

/-- Orders are `uint8`: one above order 0 is 255. -/
def handleUpdateMemberRank (player guid : G) (demote : Bool) : Except GuildFault (Roster G) :=
  if !r.guild.hasRankRight player (if demote then GR_RIGHT_DEMOTE else GR_RIGHT_PROMOTE) then .ok r
  else
    match r.guild.members guid with
    | none => .ok r
    | some member =>
      if guid = player then .ok r
      else do
        let memberMe ← r.guild.derefMember player .assertion
        let myRank ← r.guild.derefRank memberMe.rankId
        let oldRank ← r.guild.derefRank member.rankId
        if demote then
          if oldRank.rankOrder ≤ myRank.rankOrder then return r
          match r.guild.rankInfoOfOrder (oldRank.rankOrder + 1) with
          | none => return r
          | some newRank => return r.changeRank guid newRank.rankId
        else
          if oldRank.rankOrder - 1 ≤ myRank.rankOrder then return r
          match r.guild.rankInfoOfOrder (oldRank.rankOrder - 1) with
          | none => .error .assertion
          | some newRank => return r.changeRank guid newRank.rankId

/-- With `SendGuildRanksUpdate`, which changes the rank. -/
def handleSetMemberRank (player targetGuid : G) (rank : GuildRankOrder) : Roster G :=
  match r.guild.members targetGuid with
  | none => r
  | some member =>
    match r.guild.rankInfoOfId member.rankId, r.guild.rankInfoOfOrder rank with
    | some oldRank, some newRank =>
      let rights := if rank > oldRank.rankOrder then GR_RIGHT_DEMOTE else GR_RIGHT_PROMOTE
      if !r.guild.hasRankRight player rights then r
      else if targetGuid = player then r
      else r.changeRank targetGuid newRank.rankId
    | _, _ => r

/-- The last two steps of `HandleSetNewGuildMaster`. -/
def replaceLeader (newGuildMaster : G) : Except GuildFault (Roster G) := do
  let lowest ← r.guild.lowestRankId
  return (r.setLeader newGuildMaster).changeRank r.guild.leaderGuid lowest

/-- `inactiveDays` is how long the guild master has been offline. -/
def handleSetNewGuildMaster (nameOf : G → String) (player : G) (name : String)
    (isSelfPromote : Bool) (inactiveDays : UInt32) : Except GuildFault (Roster G) := do
  let _oldGuildMaster ← r.guild.derefMember r.guild.leaderGuid .assertion
  if isSelfPromote then
    match r.guild.members player with
    | none => return r
    | some newGuildMaster =>
      let oldRank ← r.guild.derefRank newGuildMaster.rankId
      if oldRank.rankOrder ≠ 1 ∨ inactiveDays < GUILD_MASTER_DETHRONE_INACTIVE_DAYS then return r
      r.replaceLeader player
  else if !r.guild.isLeader player then return r
  else
    match r.memberNamed nameOf name with
    | none => return r
    | some newGuildMaster => r.replaceLeader newGuildMaster

def handleDelete (player : G) : Answer G :=
  if r.guild.isLeader player then .disbanded else .stays r

end Roster

/-- `_CreateDefaultGuildRanks`; `trinityString` gives the names in the locale. -/
def createDefaultGuildRanks (g : Guild G) (trinityString : Fin 5 → String) : Option (Guild G) := do
  let g ← createRank g (trinityString 0) GR_RIGHT_ALL
  let g ← createRank g (trinityString 1) GR_RIGHT_ALL
  let g ← createRank g (trinityString 2) (GR_RIGHT_GCHATLISTEN ||| GR_RIGHT_GCHATSPEAK)
  let g ← createRank g (trinityString 3) (GR_RIGHT_GCHATLISTEN ||| GR_RIGHT_GCHATSPEAK)
  createRank g (trinityString 4) (GR_RIGHT_GCHATLISTEN ||| GR_RIGHT_GCHATSPEAK)

/-- `Create`, once the name is free; `false` tells that the leader could not be added. -/
def createGuild [DecidableEq G] (pLeader : G) (trinityString : Fin 5 → String) (inGuild : Bool) :
    Except GuildFault (Roster G × Bool) :=
  match createDefaultGuildRanks
      { leaderGuid := pLeader, ranks := [], members := fun _ => none } trinityString with
  | none => .error .endless
  | some guild => Roster.addMember { guild, guids := [] } pLeader inGuild true (some GuildMaster)

/-- A request on membership or leadership, with the answers of its surroundings. -/
inductive MemberRequest (G : Type) where
  | addMember (guid : G) (inGuild loaded : Bool)
  | deleteMember (guid : G)
  | leaveMember (player : G)
  | removeMember (player guid : G)
  | updateMemberRank (player guid : G) (demote : Bool)
  | setMemberRank (player targetGuid : G) (rank : GuildRankOrder)
  | setNewGuildMaster (player : G) (name : String) (isSelfPromote : Bool) (inactiveDays : UInt32)
  | delete (player : G)
  | rankTable (request : RankRequest G)
  /-- `m_members` rehashes: its members are met in another order. -/
  | rehash (guids : List G)

def RankRequest.sender : RankRequest G → G
  | .addNewRank player _ => player
  | .removeRank player _ => player
  | .shiftRank player _ _ => player

def MemberRequest.sender? : MemberRequest G → Option G
  | .addMember _ _ _ => none
  | .deleteMember _ => none
  | .leaveMember player => some player
  | .removeMember player _ => some player
  | .updateMemberRank player _ _ => some player
  | .setMemberRank player _ _ => some player
  | .setNewGuildMaster player _ _ _ => some player
  | .delete player => some player
  | .rankTable request => some request.sender
  | .rehash _ => none

def Roster.handle [DecidableEq G] (r : Roster G) (nameOf : G → String) :
    MemberRequest G → Except GuildFault (Answer G)
  | .addMember guid inGuild loaded =>
    (r.addMember guid inGuild loaded none).map fun added => .stays added.1
  | .deleteMember guid => .ok (r.deleteMember guid)
  | .leaveMember player => r.handleLeaveMember player
  | .removeMember player guid => r.handleRemoveMember player guid
  | .updateMemberRank player guid demote =>
    (r.handleUpdateMemberRank player guid demote).map .stays
  | .setMemberRank player targetGuid rank => .ok (.stays (r.handleSetMemberRank player targetGuid rank))
  | .setNewGuildMaster player name isSelfPromote inactiveDays =>
    (r.handleSetNewGuildMaster nameOf player name isSelfPromote inactiveDays).map .stays
  | .delete player => .ok (r.handleDelete player)
  | .rankTable request =>
    match handleRankRequest r.guild request with
    | some guild => .ok (.stays { r with guild })
    | none => .error .endless
  | .rehash guids => .ok (.stays { r with guids })

end LegionServer.Source.Guilds
