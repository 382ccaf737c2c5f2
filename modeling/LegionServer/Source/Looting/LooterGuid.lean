import LegionServer.Source.Looting.Loot

/-!
# Whose turn it is to loot

The looter of a group and `Group::UpdateLooterGuid` (`Group.cpp:1105-1174`). An iterator of
`m_memberSlots` is its place there, and the length of the list is `end()`.
-/
namespace LegionServer.Source.Looting
open List

/-- What a `Group` has for loot. A player has at most one slot; the empty guid is `none`. -/
structure LootGroup (G : Type*) where
  memberSlots : List G
  nodup : memberSlots.Nodup
  lootMethod : LootMethod
  looterGuid : Option G

/-- Where the players are, as far as one looted object is concerned. -/
structure Whereabouts (G : Type*) where
  findPlayer : G → Bool
  isAtGroupRewardDistance : G → Bool

variable {G : Type*}

def Whereabouts.mayLoot (players : Whereabouts G) (guid : G) : Bool :=
  players.findPlayer guid && players.isAtGroupRewardDistance guid

namespace LootGroup

variable [DecidableEq G]

def getMemberCSlot (group : LootGroup G) (guid : Option G) : Nat :=
  match guid with
  | some guid => group.memberSlots.idxOf guid
  | none => group.memberSlots.length

/-- The search from `guid_itr` to the end, and then from the start to `guid_itr`. -/
def findNewLooter (group : LootGroup G) (players : Whereabouts G) (guidItr : Nat) : Option G :=
  match (group.memberSlots.drop guidItr).find? players.mayLoot with
  | some looter => some looter
  | none => (group.memberSlots.take guidItr).find? players.mayLoot

/-- `UpdateLooterGuid`, and whether it sends an update. -/
def updateLooterGuid (group : LootGroup G) (players : Whereabouts G) (ifneed : Bool) :
    LootGroup G × Bool :=
  if group.lootMethod = .freeForAll then (group, false)
  else
    let guidItr := group.getMemberCSlot group.looterGuid
    let oldLooter := group.memberSlots[guidItr]?
    if ifneed && oldLooter.any players.mayLoot then (group, false)
    else
      let guidItr := if oldLooter.isSome then guidItr + 1 else guidItr
      match group.findNewLooter players guidItr with
      | some newLooter =>
        if group.looterGuid ≠ some newLooter then
          ({ group with looterGuid := some newLooter }, true)
        else (group, false)
      | none => ({ group with looterGuid := none }, true)

/-- The looters that so many calls of `UpdateLooterGuid(object, false)` leave. -/
def looters (players : Whereabouts G) : Nat → LootGroup G → List (Option G)
  | 0, _ => []
  | n + 1, group =>
    let (group, _) := group.updateLooterGuid players false
    group.looterGuid :: looters players n group

end LootGroup

end LegionServer.Source.Looting
