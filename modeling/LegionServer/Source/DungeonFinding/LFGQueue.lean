import LegionServer.Library.Outcome
import LegionServer.Library.FlatSet
import LegionServer.Library.Scanning
import LegionServer.Source.Objects.ObjectGuid
import Mathlib.Data.Char
import Mathlib.Data.Finset.Basic
import Mathlib.Data.List.Lex

/-!
# Roles of a dungeon group

`LFGMgr::CheckGroupRoles` takes a role away from a player who has several, calls itself on the
changed map, and gives the role back where that fails. The map is a list in the order of its keys.
-/
namespace LegionServer.Source.DungeonFinding
open Library

variable {K : Type*}

def PLAYER_ROLE_NONE : BitVec 8 := 0x00
def PLAYER_ROLE_LEADER : BitVec 8 := 0x01
def PLAYER_ROLE_TANK : BitVec 8 := 0x02
def PLAYER_ROLE_HEALER : BitVec 8 := 0x04
def PLAYER_ROLE_DAMAGE : BitVec 8 := 0x08

def PLAYER_ROLE_ANY : BitVec 8 :=
  PLAYER_ROLE_LEADER ||| PLAYER_ROLE_TANK ||| PLAYER_ROLE_HEALER ||| PLAYER_ROLE_DAMAGE

def LFG_TANKS_NEEDED : Nat := 1
def LFG_HEALERS_NEEDED : Nat := 1
def LFG_DPS_NEEDED : Nat := 3

abbrev LfgRolesMap (K : Type*) := List (K × BitVec 8)

/-- `it->second & ~PLAYER_ROLE_LEADER`. -/
def withoutLeader (mask : BitVec 8) : BitVec 8 := mask &&& ~~~PLAYER_ROLE_LEADER

structure RoleCounts where
  damage : Nat := 0
  tank : Nat := 0
  healer : Nat := 0
  deriving DecidableEq

/-- How the loop over the players is left before its end. -/
inductive Leave (K : Type*) where
  | returned (result : Bool) (groles : LfgRolesMap K)
  /-- The recursion went deeper than it was allowed to. -/
  | tooDeep

namespace LfgRolesMap

def second (groles : LfgRolesMap K) (it : Nat) : BitVec 8 :=
  (groles[it]?.map Prod.snd).getD PLAYER_ROLE_NONE

def setSecond (groles : LfgRolesMap K) (it : Nat) (mask : BitVec 8) : LfgRolesMap K :=
  groles.modify it fun player => (player.1, mask)

variable (check : LfgRolesMap K → Option (Bool × LfgRolesMap K))

/-- What the loop does for one of the three roles. -/
def countRole (bit : BitVec 8) (needed : Nat) (it : Nat) (role : BitVec 8) (count : Nat)
    (groles : LfgRolesMap K) : Except (Leave K) (Nat × LfgRolesMap K) :=
  if role &&& bit ≠ 0 then
    if role ≠ bit then
      match check (groles.setSecond it (groles.second it - bit)) with
      | none => .error .tooDeep
      | some (true, groles) => .error (.returned true groles)
      | some (false, groles) => .ok (count, groles.setSecond it (groles.second it + bit))
    else if count = needed then .error (.returned false groles)
    else .ok (count + 1, groles)
  else .ok (count, groles)

/-- One turn of the loop over the players. -/
def visit (s : RoleCounts × LfgRolesMap K) (it : Nat) :
    Except (Leave K) (RoleCounts × LfgRolesMap K) := do
  let role := withoutLeader (s.2.second it)
  if role = PLAYER_ROLE_NONE then .error (.returned false s.2) else
  let (damage, groles) ← countRole check PLAYER_ROLE_DAMAGE LFG_DPS_NEEDED it role s.1.damage s.2
  let (healer, groles) ← countRole check PLAYER_ROLE_HEALER LFG_HEALERS_NEEDED it role s.1.healer
    groles
  let (tank, groles) ← countRole check PLAYER_ROLE_TANK LFG_TANKS_NEEDED it role s.1.tank groles
  .ok (⟨damage, tank, healer⟩, groles)

def walk (groles : LfgRolesMap K) : Except (Leave K) (RoleCounts × LfgRolesMap K) :=
  (List.range groles.length).foldlM (visit check) ({}, groles)

/-- `(tank + healer + damage) == uint8(groles.size())`. -/
def complete (counts : RoleCounts) (groles : LfgRolesMap K) : Bool :=
  counts.tank + counts.healer + counts.damage == groles.length % 256

/-- `CheckGroupRoles`, which may call itself `depth` levels deep. -/
def checkGroupRoles : Nat → LfgRolesMap K → Option (Bool × LfgRolesMap K)
  | 0, _ => none
  | depth + 1, groles =>
    if groles = [] then some (false, groles) else
    match walk (checkGroupRoles depth) groles with
    | .ok (counts, groles) => some (complete counts groles, groles)
    | .error (.returned result groles) => some (result, groles)
    | .error .tooDeep => none

end LfgRolesMap
/-!
# The queue of the dungeon finder

`LFGQueue.cpp`. A player or a party is queued under its guid; what is known about a list of guids
is cached under the text of their set.
-/
open Source.Objects

def MAX_GROUP_SIZE : Nat := 5
def LFG_TIME_PROPOSAL : Int := 45

inductive LfgState
  | none | rolecheck | queued | proposal | dungeon | finishedDungeon | raidbrowser
  deriving DecidableEq, Repr

/-- In this order; the values under `withLessPlayers` are not compatible. -/
inductive LfgCompatibility
  | pending
  | wrongGroupSize | tooMuchPlayers | multipleLfgGroups | hasIgnores | noRoles | noDungeons
  | withLessPlayers | badStates | match
  deriving DecidableEq, Repr

/-- `compatibles < LFG_COMPATIBLES_WITH_LESS_PLAYERS`. -/
def LfgCompatibility.notCompatible (compatibles : LfgCompatibility) : Bool :=
  compatibles.ctorIdx < LfgCompatibility.withLessPlayers.ctorIdx

abbrev GuidList := List ObjectGuid

abbrev LfgDungeonSet := Finset Nat

structure LfgCompatibilityData where
  compatibility : LfgCompatibility := .pending
  roles : LfgRolesMap ObjectGuid := []
  deriving DecidableEq

structure LfgQueueData where
  joinTime : Int := 0
  tanks : BitVec 8 := .ofNat 8 LFG_TANKS_NEEDED
  healers : BitVec 8 := .ofNat 8 LFG_HEALERS_NEEDED
  dps : BitVec 8 := .ofNat 8 LFG_DPS_NEEDED
  dungeons : LfgDungeonSet := ∅
  roles : LfgRolesMap ObjectGuid := []
  bestCompatible : List Char := []
  deriving DecidableEq

abbrev LfgQueueDataContainer := FlatSet (Prod.fst : ObjectGuid × LfgQueueData → ObjectGuid)

abbrev LfgCompatibleContainer :=
  FlatSet (Prod.fst : List Char × LfgCompatibilityData → List Char)

abbrev GuidSet := FlatSet (id : ObjectGuid → ObjectGuid)

/-- `GuidSet guids(check.begin(), check.end())`. -/
def guidSet (check : GuidList) : GuidSet :=
  check.foldl FlatSet.put .empty

def concatenateGuids (check : GuidList) : List Char :=
  JoinedWords.joined '|' ((guidSet check).items.map ObjectGuid.toHexString)

/-- `std::string::npos != text.find(guid.ToHexString())`. -/
def Names (text : List Char) (guid : ObjectGuid) : Prop := guid.toHexString <:+: text

instance : DecidableRel Names := fun text guid => List.decidableInfix guid.toHexString text

/-- `LFGMgr::CheckGroupRoles`, which takes one role away at each level. -/
def checkGroupRoles (groles : LfgRolesMap ObjectGuid) : Option (Bool × LfgRolesMap ObjectGuid) :=
  groles.checkGroupRoles ((groles.map fun player => player.2.toNat).sum + 1)

structure LFGQueue where
  queueDataStore : LfgQueueDataContainer := .empty
  compatibleMapStore : LfgCompatibleContainer := .empty
  currentQueueStore : GuidList := []
  newToQueueStore : GuidList := []

/-- `std::count(text.begin(), text.end(), '|') + 1`, as `uint8`. -/
def combinationSize (text : List Char) : Nat := (text.count '|' + 1) % 256

namespace LfgQueueData

/-- One player of a combination, who takes the place of a role. -/
def fill (data : LfgQueueData) (player : ObjectGuid × BitVec 8) : LfgQueueData :=
  if player.2 &&& PLAYER_ROLE_TANK ≠ 0 then { data with tanks := data.tanks - 1 }
  else if player.2 &&& PLAYER_ROLE_HEALER ≠ 0 then { data with healers := data.healers - 1 }
  else { data with dps := data.dps - 1 }

def updateBestCompatible (data : LfgQueueData) (key : List Char)
    (roles : LfgRolesMap ObjectGuid) : LfgQueueData :=
  let storedSize := if data.bestCompatible = [] then 0 else combinationSize data.bestCompatible
  if combinationSize key ≤ storedSize then data
  else
    roles.foldl fill { data with
      bestCompatible := key
      tanks := .ofNat 8 LFG_TANKS_NEEDED
      healers := .ofNat 8 LFG_HEALERS_NEEDED
      dps := .ofNat 8 LFG_DPS_NEEDED }

def findBestCompatible (data : LfgQueueData) (guid : ObjectGuid)
    (compatibles : LfgCompatibleContainer) : LfgQueueData :=
  compatibles.items.foldl (fun data itr =>
    if itr.2.compatibility = .withLessPlayers ∧ Names itr.1 guid then
      data.updateBestCompatible itr.1 itr.2.roles
    else data) data

end LfgQueueData

namespace LFGQueue

variable (q : LFGQueue)

variable (guid : ObjectGuid)

def dataOf : Option LfgQueueData := (q.queueDataStore.find guid).map Prod.snd

def mapData (f : ObjectGuid → LfgQueueData → LfgQueueData) : LFGQueue :=
  { q with queueDataStore :=
      ⟨q.queueDataStore.items.map fun e => (e.1, f e.1 e.2),
        List.pairwise_map.mpr q.queueDataStore.sorted⟩ }

def addToNewQueue : LFGQueue :=
  { q with newToQueueStore := q.newToQueueStore ++ [guid] }

def removeFromNewQueue : LFGQueue :=
  { q with newToQueueStore := q.newToQueueStore.filter (· ≠ guid) }

def addToCurrentQueue : LFGQueue :=
  { q with currentQueueStore := q.currentQueueStore ++ [guid] }

def addToFrontCurrentQueue : LFGQueue :=
  { q with currentQueueStore := guid :: q.currentQueueStore }

def removeFromCurrentQueue : LFGQueue :=
  { q with currentQueueStore := q.currentQueueStore.filter (· ≠ guid) }

/-- Mark proposal members as not queued (but not remove queue data). -/
def markNotQueued (queues : GuidList) : LFGQueue :=
  queues.foldl (fun q guid => (q.removeFromNewQueue guid).removeFromCurrentQueue guid) q

def addToQueue (reAdd : Bool) : LFGQueue :=
  if q.dataOf guid = none then q
  else if reAdd then q.addToFrontCurrentQueue guid
  else q.addToNewQueue guid

def removeFromCompatibles : LFGQueue :=
  { q with compatibleMapStore :=
      ⟨q.compatibleMapStore.items.filter fun it => ¬Names it.1 guid,
        q.compatibleMapStore.sorted.sublist List.filter_sublist⟩ }

/-- What `RemoveFromQueue` does to the data of the entries that stay. -/
def forget (guid other : ObjectGuid) (data : LfgQueueData) : LfgQueueData :=
  if other ≠ guid ∧ Names data.bestCompatible guid then
    { data with bestCompatible := [] }.findBestCompatible other q.compatibleMapStore
  else data

/-- The last steps of `RemoveFromQueue`, over `QueueDataStore`. -/
def removeData : LFGQueue :=
  let rest := q.mapData (q.forget guid)
  { rest with queueDataStore := rest.queueDataStore.erase guid }

def removeFromQueue : LFGQueue :=
  (((q.removeFromNewQueue guid).removeFromCurrentQueue guid).removeFromCompatibles guid).removeData
    guid

def addQueueData (joinTime : Int) (dungeons : LfgDungeonSet) (rolesMap : LfgRolesMap ObjectGuid) :
    LFGQueue :=
  let data : LfgQueueData := { joinTime := joinTime, dungeons := dungeons, roles := rolesMap }
  { q with queueDataStore := q.queueDataStore.put (guid, data) }.addToQueue guid false

def getCompatibles (key : List Char) : LfgCompatibility :=
  (q.compatibleMapStore.find key).elim .pending fun itr => itr.2.compatibility

def setCompatibilityData (key : List Char) (data : LfgCompatibilityData) : LFGQueue :=
  { q with compatibleMapStore := q.compatibleMapStore.put (key, data) }

def setCompatibles (key : List Char) (compatibles : LfgCompatibility) : LFGQueue :=
  let data := ((q.compatibleMapStore.find key).map Prod.snd).getD {}
  q.setCompatibilityData key { data with compatibility := compatibles }

def updateBestCompatibleInQueue (key : List Char) (roles : LfgRolesMap ObjectGuid) : LFGQueue :=
  q.mapData fun other data =>
    if other = guid then data.updateBestCompatible key roles else data

end LFGQueue
end LegionServer.Source.DungeonFinding
