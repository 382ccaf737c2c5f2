import Mathlib.Logic.Function.Basic

/-!
# Groups, raids and their sub groups

Members, sub groups and conversions of a `Group` (`Group.cpp:146-352`, `424-664`,
`665-710`, `1009-1101`, `1588-1600`, `1698-1850`), with the handlers in front of them
(`GroupHandler.cpp:193-240`, `451-525`, `630-640`). Loot, difficulties, target icons, the
database and packets are left out: nothing below reads them.
-/
namespace LegionServer.Source.Groups

def MAX_GROUP_SIZE : UInt8 := 5
def MAX_RAID_SIZE : Nat := 40
def MAX_RAID_SUBGROUPS : UInt8 := 8

def GROUP_FLAG_NONE : UInt16 := 0x000
def GROUP_FLAG_FAKE_RAID : UInt16 := 0x001
def GROUP_FLAG_RAID : UInt16 := 0x002
def GROUP_FLAG_LFG_RESTRICTED : UInt16 := 0x004
def GROUP_FLAG_LFG : UInt16 := 0x008
def GROUP_FLAG_EVERYONE_ASSISTANT : UInt16 := 0x040
def GROUP_MASK_BGRAID : UInt16 := GROUP_FLAG_FAKE_RAID ||| GROUP_FLAG_RAID

def MEMBER_FLAG_ASSISTANT : UInt8 := 0x01

structure MemberSlot (G : Type*) where
  guid : G
  group : UInt8
  flags : UInt8 := 0

/-- `subGroupsCounts` is the array of `MAX_RAID_SUBGROUPS` counters, if there is one;
a sub group past its end is past the array. -/
structure Group (G : Type*) where
  leaderGuid : G
  groupFlags : UInt16 := GROUP_FLAG_NONE
  isBGGroup : Bool := false
  isBFGroup : Bool := false
  memberSlots : List (MemberSlot G) := []
  subGroupsCounts : Option (UInt8 → UInt8) := none

structure Surroundings (G : Type*) where
  connected : G → Bool
  /-- `m_memberMgr.size()` once the member is gone. -/
  linkedMembers : Nat
  /-- The last member of a dungeon finder group is not, or no longer, in its dungeon. -/
  outsideDungeon : Bool

namespace Group

variable {G : Type*}

variable (g : Group G)

def isRaidGroup : Bool := g.groupFlags &&& GROUP_FLAG_RAID != 0
def isLFGGroup : Bool := g.groupFlags &&& GROUP_FLAG_LFG != 0
def getMembersCount : Nat := g.memberSlots.length

def isFull : Bool :=
  if g.isRaidGroup then decide (MAX_RAID_SIZE ≤ g.memberSlots.length)
  else decide (MAX_GROUP_SIZE.toNat ≤ g.memberSlots.length)

def hasFreeSlotSubGroup (subgroup : UInt8) : Bool :=
  match g.subGroupsCounts with
  | some counts => counts subgroup < MAX_GROUP_SIZE
  | none => false

def subGroupCounterIncrease (subgroup : UInt8) : Group G :=
  { g with subGroupsCounts := g.subGroupsCounts.map fun counts =>
      Function.update counts subgroup (counts subgroup + 1) }

def subGroupCounterDecrease (subgroup : UInt8) : Group G :=
  { g with subGroupsCounts := g.subGroupsCounts.map fun counts =>
      Function.update counts subgroup (counts subgroup - 1) }

def initRaidSubGroupsCounter : Group G :=
  { g with subGroupsCounts := some (g.memberSlots.foldl
      (fun counts slot => Function.update counts slot.group (counts slot.group + 1)) fun _ => 0) }

/-- The loop of `AddMember`: the first sub group with a free place. -/
def firstNotFull (counts : UInt8 → UInt8) : Option UInt8 :=
  ((List.range MAX_RAID_SUBGROUPS.toNat).map UInt8.ofNat).find? fun subGroup =>
    counts subGroup < MAX_GROUP_SIZE

/-- `AddMember`, and whether it added the player. -/
def addMember (player : G) : Group G × Bool :=
  let subGroup := match g.subGroupsCounts with
    | some counts => firstNotFull counts
    | none => some 0
  match subGroup with
  | none => (g, false)
  | some subGroup =>
    (subGroupCounterIncrease
      { g with memberSlots := g.memberSlots ++ [{ guid := player, group := subGroup }] } subGroup,
      true)

/-- `ConvertToLFG`, as far as groups are concerned. -/
def convertToLFG : Group G :=
  { g with groupFlags := g.groupFlags ||| GROUP_FLAG_LFG ||| GROUP_FLAG_LFG_RESTRICTED }

/-- `Create`, of a group of a battleground, a battlefield or the dungeon finder, or of
players; none of the two `AddMember` calls may fail. -/
def create (leader : G) (isBGGroup isBFGroup lfg : Bool) : Option (Group G) :=
  let g : Group G := { leaderGuid := leader, isBGGroup, isBFGroup }
  let g := if lfg then g.convertToLFG else g
  let g := if isBGGroup || isBFGroup then { g with groupFlags := GROUP_MASK_BGRAID } else g
  let g := if g.isRaidGroup then g.initRaidSubGroupsCounter else g
  match g.addMember leader with
  | (g, true) => some g
  | (_, false) => none

def convertToRaid : Group G :=
  initRaidSubGroupsCounter { g with groupFlags := g.groupFlags ||| GROUP_FLAG_RAID }

def convertToGroup : Group G :=
  if g.memberSlots.length > 5 then g
  else { g with groupFlags := g.groupFlags &&& ~~~GROUP_FLAG_RAID, subGroupsCounts := none }

variable [DecidableEq G]

/-- `_getMemberWSlot`. -/
def memberSlot (guid : G) : Option (Nat × MemberSlot G) :=
  (g.memberSlots.findIdx? fun slot => slot.guid = guid).bind fun i =>
    (g.memberSlots[i]?).map fun slot => (i, slot)

def setSlot (i : Nat) (slot : MemberSlot G) : Group G :=
  { g with memberSlots := g.memberSlots.set i slot }

def toggleFlag (slot : MemberSlot G) (flag : UInt8) (apply : Bool) : MemberSlot G :=
  { slot with flags := if apply then slot.flags ||| flag else slot.flags &&& ~~~flag }

def isAssistant (guid : G) : Bool :=
  match g.memberSlot guid with
  | some (_, slot) => slot.flags &&& MEMBER_FLAG_ASSISTANT == MEMBER_FLAG_ASSISTANT
  | none => false

def changeLeader (connected : G → Bool) (newLeaderGuid : G) : Group G :=
  match g.memberSlot newLeaderGuid with
  | none => g
  | some (i, slot) =>
    if !connected newLeaderGuid then g
    else { g.setSlot i (toggleFlag slot MEMBER_FLAG_ASSISTANT false) with leaderGuid := newLeaderGuid }

/-- `RemoveMember`; `none` when the group is disbanded. -/
def removeMember (env : Surroundings G) (guid : G) (kick : Bool) : Option (Group G) :=
  -- a kick out of a dungeon finder group is put to the vote
  if g.isLFGGroup && kick then some g
  else if g.getMembersCount > (if g.isBGGroup || g.isLFGGroup || g.isBFGroup then 1 else 2) then
    let g := match g.memberSlot guid with
      | some (i, slot) =>
        { g.subGroupCounterDecrease slot.group with memberSlots := g.memberSlots.eraseIdx i }
      | none => g
    let g := if g.leaderGuid = guid then
        match g.memberSlots.find? fun slot => env.connected slot.guid with
        | some slot => g.changeLeader env.connected slot.guid
        | none => g
      else g
    if g.isLFGGroup && g.getMembersCount == 1 && env.outsideDungeon then none
    else if env.linkedMembers < (if g.isLFGGroup || g.isBGGroup then 1 else 2) then none
    else some g
  else none

/-- The counter is changed for the new sub group first, then for the old one. -/
def changeMembersGroup (guid : G) (group : UInt8) : Group G :=
  if !g.isRaidGroup then g
  else
    match g.memberSlot guid with
    | none => g
    | some (i, slot) =>
      if slot.group = group then g
      else ((g.setSlot i { slot with group }).subGroupCounterIncrease group).subGroupCounterDecrease
        slot.group

def swapMembersGroups (firstGuid secondGuid : G) : Group G :=
  if !g.isRaidGroup then g
  else
    match g.memberSlot firstGuid, g.memberSlot secondGuid with
    | some (i, first), some (j, second) =>
      if first.group = second.group then g
      else (g.setSlot i { first with group := second.group }).setSlot j
        { second with group := first.group }
    | _, _ => g

def setAssistant (guid : G) (apply : Bool) : Group G :=
  if !g.isRaidGroup then g
  else
    match g.memberSlot guid with
    | none => g
    | some (i, slot) => g.setSlot i (toggleFlag slot MEMBER_FLAG_ASSISTANT apply)

def setEveryoneIsAssistant (apply : Bool) : Group G :=
  { g with
    groupFlags := if apply then g.groupFlags ||| GROUP_FLAG_EVERYONE_ASSISTANT
      else g.groupFlags &&& ~~~GROUP_FLAG_EVERYONE_ASSISTANT
    memberSlots := g.memberSlots.map fun slot => toggleFlag slot MEMBER_FLAG_ASSISTANT apply }

/-- `HandlePartyInviteResponseOpcode` with an accepted invitation to a created group. -/
def handlePartyInviteResponse (player : G) : Group G :=
  if g.leaderGuid = player then g
  else if g.isFull then g
  else (g.addMember player).1

def handleConvertRaid (sender : G) (inBattleground raid : Bool) : Group G :=
  if inBattleground then g
  else if g.leaderGuid ≠ sender ∨ g.getMembersCount < 2 then g
  else if raid then g.convertToRaid
  else g.convertToGroup

def handleChangeSubGroup (sender targetGuid : G) (newSubGroup : UInt8) : Group G :=
  if newSubGroup ≥ MAX_RAID_SUBGROUPS then g
  else if g.leaderGuid ≠ sender ∧ g.isAssistant sender = false then g
  else if !g.hasFreeSlotSubGroup newSubGroup then g
  else g.changeMembersGroup targetGuid newSubGroup

def handleSwapSubGroups (sender firstTarget secondTarget : G) : Group G :=
  if g.leaderGuid ≠ sender ∧ g.isAssistant sender = false then g
  else g.swapMembersGroups firstTarget secondTarget

def handleSetAssistantLeader (sender target : G) (apply : Bool) : Group G :=
  if g.leaderGuid ≠ sender then g else g.setAssistant target apply

def handleSetEveryoneIsAssistant (sender : G) (apply : Bool) : Group G :=
  if g.leaderGuid ≠ sender then g else g.setEveryoneIsAssistant apply

end Group

inductive GroupRequest (G : Type*) where
  | inviteResponse (player : G)
  /-- `AddMember` for a battleground, a battlefield or a proposal of the dungeon finder. -/
  | serverAdd (player : G)
  | removeMember (env : Surroundings G) (guid : G) (kick : Bool)
  | changeLeader (connected : G → Bool) (newLeaderGuid : G)
  | convertRaid (sender : G) (inBattleground raid : Bool)
  | changeSubGroup (sender targetGuid : G) (newSubGroup : UInt8)
  | swapSubGroups (sender firstTarget secondTarget : G)
  | setAssistantLeader (sender target : G) (apply : Bool)
  | setEveryoneIsAssistant (sender : G) (apply : Bool)

/-- What the request leaves of the group, unless it disbands it. -/
def Group.handle {G : Type*} [DecidableEq G] (g : Group G) : GroupRequest G → Option (Group G)
  | .inviteResponse player => some (g.handlePartyInviteResponse player)
  | .serverAdd player => some (g.addMember player).1
  | .removeMember env guid kick => g.removeMember env guid kick
  | .changeLeader connected newLeaderGuid => some (g.changeLeader connected newLeaderGuid)
  | .convertRaid sender inBattleground raid => some (g.handleConvertRaid sender inBattleground raid)
  | .changeSubGroup sender targetGuid newSubGroup =>
    some (g.handleChangeSubGroup sender targetGuid newSubGroup)
  | .swapSubGroups sender firstTarget secondTarget =>
    some (g.handleSwapSubGroups sender firstTarget secondTarget)
  | .setAssistantLeader sender target apply => some (g.handleSetAssistantLeader sender target apply)
  | .setEveryoneIsAssistant sender apply => some (g.handleSetEveryoneIsAssistant sender apply)

end LegionServer.Source.Groups
