import LegionServer.Source.DungeonFinding.LFGQueue
import Mathlib.Order.Fin.Basic

/-!
# Finding groups

`FindGroups`, `FindNewGroups` and `CheckCompatibility` (`LFGQueue.cpp:288-581`). What they ask of
the manager does not change while they run: the states of the entries are set when they are done.
A result `none` stands for a recursion that went deeper than it was allowed to.
-/
namespace LegionServer.Source.DungeonFinding
open Library Source.Objects

inductive LfgProposalState
  | initiating | failed | success
  deriving DecidableEq, Repr

inductive LfgAnswer
  | pending | deny | agree
  deriving DecidableEq, Repr

structure LfgProposalPlayer where
  role : BitVec 8 := 0
  accept : LfgAnswer := .pending
  group : ObjectGuid := .empty
  deriving DecidableEq

structure LfgProposal where
  id : Nat := 0
  dungeonId : Nat := 0
  state : LfgProposalState := .initiating
  group : ObjectGuid := .empty
  leader : ObjectGuid := .empty
  cancelTime : Int := 0
  isNew : Bool := false
  queues : GuidList := []
  /-- In the order of the guids. -/
  players : List (ObjectGuid × LfgProposalPlayer) := []
  deriving DecidableEq

structure LfgSocial where
  connected : ObjectGuid → Bool
  ignores : ObjectGuid → ObjectGuid → Bool

/-- What the queue asks of `sLFGMgr`, and the clock. -/
structure LfgView where
  getState : ObjectGuid → LfgState
  getOldState : ObjectGuid → LfgState
  social : LfgSocial
  gameTime : Int

namespace LfgView

variable (view : LfgView)

/-- `LfgGroupData::IsLfgGroup` for the guid of a party. -/
def isLfgGroup (guid : ObjectGuid) : Bool :=
  !guid.isEmpty && guid.isParty && view.getOldState guid ≠ .none

def allQueued (check : GuidList) : Bool :=
  check ≠ [] && check.all fun it => view.getState it = .queued

def hasIgnore (guid1 guid2 : ObjectGuid) : Bool :=
  view.social.connected guid1 && view.social.connected guid2 &&
    (view.social.ignores guid1 guid2 || view.social.ignores guid2 guid1)

end LfgView

structure LfgChance where
  /-- `SelectRandomContainerElement(proposalDungeons)`. -/
  dungeon : Nat → LfgDungeonSet → Nat
  dungeon_mem : ∀ draw dungeons, dungeons.Nonempty → dungeon draw dungeons ∈ dungeons
  /-- `urand(0, 1)` for a player. -/
  leads : Nat → ObjectGuid → Bool

/-- A proposal, and the queue as it is when `AddProposal` is called. -/
structure AddedProposal where
  proposal : LfgProposal
  queue : LFGQueue

/-- A queue being searched, and the proposals handed to `AddProposal` so far. -/
structure Search where
  queue : LFGQueue
  proposals : List AddedProposal := []

namespace Search

def setCompatibles (s : Search) (key : List Char) (compatibles : LfgCompatibility) : Search :=
  { s with queue := s.queue.setCompatibles key compatibles }

end Search

/-- What the first loop of `CheckCompatibility` counts. -/
structure EntryCount where
  numPlayers : Nat := 0
  numLfgGroups : Nat := 0
  group : ObjectGuid := .empty
  /-- The last entry for a player stands first. -/
  proposalGroups : List (ObjectGuid × ObjectGuid) := []

def assignRole (proposalRoles : LfgRolesMap ObjectGuid) (player : ObjectGuid × BitVec 8) :
    LfgRolesMap ObjectGuid :=
  proposalRoles.filter (fun other => other.1 < player.1) ++
    player :: proposalRoles.filter (fun other => player.1 < other.1)

namespace CheckCompatibility

variable (view : LfgView) (chance : LfgChance)

/-- The data of a guid that the first loop has found to be queued. -/
def queued (q : LFGQueue) (guid : ObjectGuid) : LfgQueueData := (q.dataOf guid).getD {}

/-- The first loop, or the guid that has no data. -/
def countEntries (q : LFGQueue) : GuidList → EntryCount → Except ObjectGuid EntryCount
  | [], count => .ok count
  | guid :: check, count =>
    if count.numLfgGroups < 2 ∧ count.numPlayers ≤ MAX_GROUP_SIZE then
      match q.dataOf guid with
      | none => .error guid
      | some data =>
        let group := if guid.isParty then guid else .empty
        let isLfgGroup := view.isLfgGroup guid
        countEntries q check
          { numPlayers := (count.numPlayers + data.roles.length) % 256
            numLfgGroups := if isLfgGroup then count.numLfgGroups + 1 else count.numLfgGroups
            group := if isLfgGroup ∧ count.numLfgGroups = 0 then guid else count.group
            proposalGroups :=
              (data.roles.map fun player => (player.1, group)).reverse ++ count.proposalGroups }
    else .ok count

/-- One player of an entry, who is left out because of an ignore. -/
def gatherRole (proposalRoles : LfgRolesMap ObjectGuid) (player : ObjectGuid × BitVec 8) :
    LfgRolesMap ObjectGuid :=
  if proposalRoles.any fun other => other.1 ≠ player.1 && view.hasIgnore player.1 other.1 then
    proposalRoles
  else assignRole proposalRoles player

/-- The loops over the roles of the entries. -/
def gatherRoles (q : LFGQueue) (check : GuidList) : LfgRolesMap ObjectGuid :=
  check.foldl (fun proposalRoles guid =>
    (queued q guid).roles.foldl (gatherRole view) proposalRoles) []

def commonDungeons (q : LFGQueue) : GuidList → LfgDungeonSet
  | [] => ∅
  | guid :: check =>
    check.foldl (fun proposalDungeons other => proposalDungeons ∩ (queued q other).dungeons)
      (queued q guid).dungeons

/-- One player of the loop that finds the leader, with `leader` and `proposal.leader`. -/
def chooseLeader (draw : Nat) (s : Bool × ObjectGuid) (player : ObjectGuid × BitVec 8) :
    Bool × ObjectGuid :=
  if player.2 &&& PLAYER_ROLE_LEADER ≠ 0 then
    (true, if !s.1 ∨ s.2.isEmpty ∨ chance.leads draw player.1 then player.1 else s.2)
  else if !s.1 ∧ (s.2.isEmpty ∨ chance.leads draw player.1) then (s.1, player.1)
  else s

/-- The player's part in a proposal; a player from an existing group accepts at once. -/
def proposalPlayer (count : EntryCount) (isNew : Bool) (player : ObjectGuid × BitVec 8) :
    ObjectGuid × LfgProposalPlayer :=
  let group := (count.proposalGroups.lookup player.1).getD .empty
  (player.1, { role := player.2, group := group, accept :=
    if !isNew ∧ !group.isEmpty ∧ group = count.group then .agree else .pending })

variable (check : GuidList)

/-- The end of the function: a new proposal whose members are in neither list. -/
def propose (count : EntryCount) (proposalDungeons : LfgDungeonSet)
    (proposalRoles : LfgRolesMap ObjectGuid) (s : Search) : Search :=
  let draw := s.proposals.length
  let isNew : Bool := count.numLfgGroups ≠ 1 ∨ view.getOldState (check.headD .empty) ≠ .dungeon
  let proposal : LfgProposal :=
    { dungeonId := chance.dungeon draw proposalDungeons
      group := count.group
      leader := (proposalRoles.foldl (chooseLeader chance draw) (false, .empty)).2
      cancelTime := view.gameTime + LFG_TIME_PROPOSAL
      isNew := isNew
      queues := check
      players := proposalRoles.map (proposalPlayer count isNew) }
  let queue := s.queue.markNotQueued check
  { queue := queue, proposals := s.proposals ++ [⟨proposal, queue⟩] }

def lessPlayers (roles : LfgRolesMap ObjectGuid) (s : Search) : Search :=
  let strGuids := concatenateGuids check
  let queue := check.foldl (fun q guid => q.updateBestCompatibleInQueue guid strGuids roles) s.queue
  { s with queue := queue.setCompatibilityData strGuids ⟨.withLessPlayers, roles⟩ }

/-- After the roles and the dungeons are known to fit. -/
def enoughPlayers (count : EntryCount) (proposalDungeons : LfgDungeonSet)
    (proposalRoles : LfgRolesMap ObjectGuid) (s : Search) : LfgCompatibility × Search :=
  if count.numPlayers ≠ MAX_GROUP_SIZE then
    (.withLessPlayers, lessPlayers check proposalRoles s)
  else if !view.allQueued check then
    (.badStates, s.setCompatibles (concatenateGuids check) .badStates)
  else
    (.match, (propose view chance check count proposalDungeons proposalRoles s).setCompatibles
      (concatenateGuids check) .match)

/-- Several entries: duplicate players, ignores, roles and dungeons. -/
def severalEntries (count : EntryCount) (s : Search) :
    Option (LfgCompatibility × Search) := do
  let strGuids := concatenateGuids check
  let proposalRoles := gatherRoles view s.queue check
  if count.numPlayers ≠ proposalRoles.length % 256 then
    return (.hasIgnores, s.setCompatibles strGuids .hasIgnores)
  let (result, proposalRoles) ← checkGroupRoles proposalRoles
  if !result then
    return (.noRoles, s.setCompatibles strGuids .noRoles)
  let proposalDungeons := commonDungeons s.queue check
  if proposalDungeons = ∅ then
    return (.noDungeons, s.setCompatibles strGuids .noDungeons)
  return enoughPlayers view chance check count proposalDungeons proposalRoles s

def checkEntries (s : Search) : Option (LfgCompatibility × Search) :=
  let strGuids := concatenateGuids check
  match countEntries view s.queue check {} with
  | .error guid => some (.pending, { s with queue := s.queue.removeFromQueue guid })
  | .ok count =>
    if check.length = 1 ∧ count.numPlayers ≠ MAX_GROUP_SIZE then do
      let (_, roles) ← checkGroupRoles (queued s.queue (check.headD .empty)).roles
      return (.withLessPlayers, lessPlayers check roles s)
    else if 1 < count.numLfgGroups then
      some (.multipleLfgGroups, s.setCompatibles strGuids .multipleLfgGroups)
    else if MAX_GROUP_SIZE < count.numPlayers then
      some (.tooMuchPlayers, s.setCompatibles strGuids .tooMuchPlayers)
    else if 1 < check.length then severalEntries view chance check count s
    else do
      let data := queued s.queue (check.headD .empty)
      let (_, proposalRoles) ← checkGroupRoles data.roles
      return enoughPlayers view chance check count data.dungeons proposalRoles s

end CheckCompatibility

section

variable (view : LfgView) (chance : LfgChance)

open CheckCompatibility

def checkCompatibility : GuidList → Search → Option (LfgCompatibility × Search)
  | [], s => some (.wrongGroupSize, s)
  | front :: check, s =>
    if MAX_GROUP_SIZE < check.length + 1 then some (.wrongGroupSize, s)
    else if 2 < check.length + 1 then do
      let (child, s) ← checkCompatibility check s
      if child.notCompatible then
        return (child, s.setCompatibles (concatenateGuids (front :: check)) child)
      checkEntries view chance (front :: check) s
    else checkEntries view chance (front :: check) s

/-- `FindNewGroups` up to the loop. -/
def compatibility (check : GuidList) (s : Search) : Option (LfgCompatibility × Search) := do
  let strGuids := concatenateGuids check
  let cached := s.queue.getCompatibles strGuids
  let (compatibles, s) ← if cached = .pending then checkCompatibility view chance check s
    else some (cached, s)
  if compatibles = .badStates ∧ view.allQueued check then
    return (.match, s.setCompatibles strGuids .match)
  return (compatibles, s)

/-- The loop of `FindNewGroups`: `search` takes what it tries from the list of all others. -/
def tryAll (search : GuidList → GuidList → Search → Option (LfgCompatibility × GuidList × Search))
    (check : GuidList) : Nat → GuidList → Search → Option (LfgCompatibility × GuidList × Search)
  | _, [], s => some (.withLessPlayers, [], s)
  | 0, _ :: _, _ => none
  | rounds + 1, guid :: all, s => do
    let (subcompatibility, all, s) ← search (check ++ [guid]) all s
    if subcompatibility = .match then return (.match, all, s)
    tryAll search check rounds all s

/-- `FindNewGroups`, which may call itself `depth` levels deep. -/
def findNewGroups :
    Nat → GuidList → GuidList → Search → Option (LfgCompatibility × GuidList × Search)
  | 0, _, _, _ => none
  | depth + 1, check, all, s => do
    let (compatibles, s) ← compatibility view chance check s
    if compatibles ≠ .withLessPlayers then return (compatibles, all, s)
    tryAll (findNewGroups depth) check all.length all s

/-- One turn of the loop of `FindGroups`. -/
def findGroup (frontguid : ObjectGuid) (s : Search) : Option Search := do
  let queue := s.queue.removeFromNewQueue frontguid
  let temporalList := queue.currentQueueStore
  let (compatibles, _, s) ← findNewGroups view chance (temporalList.length + 1) [frontguid]
    temporalList { s with queue := queue }
  if compatibles = .match then return s
  return { s with queue := s.queue.addToCurrentQueue frontguid }

/-- The loop of `FindGroups` for at most as many turns as there is fuel. -/
def findGroupsLoop : Nat → Search → Option Search
  | fuel, s =>
    match s.queue.newToQueueStore, fuel with
    | [], _ => some s
    | _ :: _, 0 => none
    | frontguid :: _, fuel + 1 => findGroup view chance frontguid s >>= findGroupsLoop fuel

/-- A turn takes an entry out of the list of new ones and puts none into it. -/
def findGroups (q : LFGQueue) : Option Search :=
  findGroupsLoop view chance q.newToQueueStore.length { queue := q }

end
/-!
# The manager of the dungeon finder

The states of players and groups, and the proposals with their answers
(`LFGMgr.cpp:317-380, 514-600, 720-808, 1039-1251`).
-/

inductive LfgUpdateType
  | proposalFailed | proposalDeclined
  deriving DecidableEq, Repr

def LFG_GROUP_MAX_KICKS : Nat := 3

structure LfgPlayerData where
  state : LfgState := .none
  oldState : LfgState := .none
  team : Fin 256 := 0
  group : ObjectGuid := .empty
  roles : BitVec 8 := 0
  selectedDungeons : LfgDungeonSet := ∅

structure LfgGroupData where
  state : LfgState := .none
  oldState : LfgState := .none
  dungeon : Nat := 0
  kicksLeft : Nat := LFG_GROUP_MAX_KICKS
  players : GuidSet := .empty

namespace LfgPlayerData

def setState (data : LfgPlayerData) : LfgState → LfgPlayerData
  | .none => { data with roles := 0, selectedDungeons := ∅, oldState := .none, state := .none }
  | .finishedDungeon =>
    { data with
      roles := 0
      selectedDungeons := ∅
      oldState := .finishedDungeon
      state := .finishedDungeon }
  | .dungeon => { data with oldState := .dungeon, state := .dungeon }
  | state => { data with state := state }

def restoreState (data : LfgPlayerData) : LfgPlayerData :=
  let data := if data.oldState = .none then { data with selectedDungeons := ∅, roles := 0 } else data
  { data with state := data.oldState }

end LfgPlayerData

namespace LfgGroupData

def setState (data : LfgGroupData) : LfgState → LfgGroupData
  | .none =>
    { data with dungeon := 0, kicksLeft := LFG_GROUP_MAX_KICKS, oldState := .none, state := .none }
  | .finishedDungeon => { data with oldState := .finishedDungeon, state := .finishedDungeon }
  | .dungeon => { data with oldState := .dungeon, state := .dungeon }
  | state => { data with state := state }

def restoreState (data : LfgGroupData) : LfgGroupData := { data with state := data.oldState }

end LfgGroupData

/-- The maps of players, groups and queues hold a default value where they hold nothing. -/
structure LFGMgr where
  playersStore : ObjectGuid → LfgPlayerData := fun _ => {}
  groupsStore : ObjectGuid → LfgGroupData := fun _ => {}
  queuesStore : FlatSet (Prod.fst : Fin 256 × LFGQueue → Fin 256) := .empty
  proposalsStore : FlatSet LfgProposal.id := .empty
  lfgProposalId : Nat := 0

namespace LfgProposal

/-- The guid a player is queued under: of the original group, or the player's own. -/
def entryOf (player : ObjectGuid × LfgProposalPlayer) : ObjectGuid :=
  if !player.2.group.isEmpty then player.2.group else player.1

def markPending (type : LfgUpdateType) (players : List (ObjectGuid × LfgProposalPlayer)) :
    List (ObjectGuid × LfgProposalPlayer) :=
  if type = .proposalFailed then
    players.map fun it =>
      if it.2.accept = .pending then (it.1, { it.2 with accept := .deny }) else it
  else players

/-- The loop that marks players and groups to be removed. -/
def toRemove (type : LfgUpdateType) (players : List (ObjectGuid × LfgProposalPlayer)) : GuidSet :=
  players.foldl (fun toRemove it =>
    if it.2.accept = .agree then toRemove
    else if it.2.accept = .deny ∨ type = .proposalFailed then toRemove.put (entryOf it)
    else toRemove) .empty

def answer (proposal : LfgProposal) (guid : ObjectGuid) (accept : LfgAnswer) : LfgProposal :=
  { proposal with players := proposal.players.map fun it =>
      if it.1 = guid then (it.1, { it.2 with accept := accept }) else it }

end LfgProposal

namespace LFGMgr

variable (mgr : LFGMgr)

variable (guid : ObjectGuid)

def getState : LfgState :=
  if guid.isParty then (mgr.groupsStore guid).state else (mgr.playersStore guid).state

def getOldState : LfgState :=
  if guid.isParty then (mgr.groupsStore guid).oldState else (mgr.playersStore guid).oldState

def modifyPlayer (f : LfgPlayerData → LfgPlayerData) : LFGMgr :=
  { mgr with playersStore := fun other =>
      if other = guid then f (mgr.playersStore other) else mgr.playersStore other }

def modifyGroup (f : LfgGroupData → LfgGroupData) : LFGMgr :=
  { mgr with groupsStore := fun other =>
      if other = guid then f (mgr.groupsStore other) else mgr.groupsStore other }

def setState (guid : ObjectGuid) (state : LfgState) : LFGMgr :=
  if guid.isParty then mgr.modifyGroup guid (·.setState state)
  else mgr.modifyPlayer guid (·.setState state)

def restoreState (guid : ObjectGuid) : LFGMgr :=
  if guid.isParty then mgr.modifyGroup guid (·.restoreState)
  else mgr.modifyPlayer guid (·.restoreState)

def getTeam : Fin 256 := (mgr.playersStore guid).team

/-- A party is queued with the team of its first player. -/
def getQueueId : Fin 256 :=
  if guid.isParty then
    match (mgr.groupsStore guid).players.items with
    | pguid :: _ => if pguid.isEmpty then mgr.getTeam guid else mgr.getTeam pguid
    | [] => mgr.getTeam guid
  else mgr.getTeam guid

def queueAt (queueId : Fin 256) : LFGQueue := ((mgr.queuesStore.find queueId).map Prod.snd).getD {}

def setQueueAt (queueId : Fin 256) (queue : LFGQueue) : LFGMgr :=
  { mgr with queuesStore := mgr.queuesStore.put (queueId, queue) }

def addProposal (proposal : LfgProposal) : LFGMgr :=
  let id := (mgr.lfgProposalId + 1) % 2 ^ 32
  { mgr with
    lfgProposalId := id
    proposalsStore := mgr.proposalsStore.put { proposal with id := id } }

/-- What the loop that notifies the players does to the states of one of them. -/
def notifyPlayer (toRemove : GuidSet) (mgr : LFGMgr)
    (it : ObjectGuid × LfgProposalPlayer) : LFGMgr :=
  let gguid := LfgProposal.entryOf it
  if (toRemove.find gguid).isSome then
    let mgr := mgr.restoreState it.1
    if gguid ≠ it.1 then mgr.restoreState it.2.group else mgr
  else
    let mgr := mgr.setState it.1 .queued
    if gguid ≠ it.1 then mgr.setState gguid .queued else mgr

/-- The queue after the entries to be removed are, and the entries left. -/
def removeEntries (toRemove : GuidList) (queue : LFGQueue) (queues : GuidList) :
    LFGQueue × GuidList :=
  toRemove.foldl (fun s guid => (s.1.removeFromQueue guid, s.2.filter (· ≠ guid))) (queue, queues)

/-- `for (guid in queues) queue.AddToQueue(guid, true)`. -/
def readdEntries (queues : GuidList) (queue : LFGQueue) : LFGQueue :=
  queues.foldl (fun queue guid => queue.addToQueue guid true) queue

def removeProposal (proposal : LfgProposal) (type : LfgUpdateType) : LFGMgr :=
  let players := LfgProposal.markPending type proposal.players
  let toRemove := LfgProposal.toRemove type players
  let mgr := players.foldl (notifyPlayer toRemove) mgr
  let queueId := mgr.getQueueId ((players.map Prod.fst).headD .empty)
  let removed := removeEntries toRemove.items (mgr.queueAt queueId) proposal.queues
  let mgr := mgr.setQueueAt queueId (readdEntries removed.2 removed.1)
  { mgr with proposalsStore := mgr.proposalsStore.erase proposal.id }

/-- `UpdateProposal` for a player who does not accept. -/
def declineProposal (proposalId : Nat) (guid : ObjectGuid) : LFGMgr :=
  match mgr.proposalsStore.find proposalId with
  | none => mgr
  | some proposal =>
    if guid ∈ proposal.players.map Prod.fst then
      mgr.removeProposal (proposal.answer guid .deny) .proposalDeclined
    else mgr

/-- `JoinLfg` for a player without a group who meets the conditions. -/
def joinLfg (roles : BitVec 8) (dungeons : LfgDungeonSet) (gameTime : Int) : LFGMgr :=
  let queueId := mgr.getQueueId guid
  let queue := if mgr.getState guid = .queued then (mgr.queueAt queueId).removeFromQueue guid
    else mgr.queueAt queueId
  let mgr := mgr.setQueueAt queueId (queue.addQueueData guid gameTime dungeons [(guid, roles)])
  let mgr := mgr.modifyPlayer guid fun data =>
    { data with selectedDungeons := dungeons, roles := roles }
  mgr.setState guid .queued

/-- `UpdateRoleCheck` once every player of a party has selected a role. -/
def finishRoleCheck (gguid : ObjectGuid) (roles : LfgRolesMap ObjectGuid)
    (dungeons : LfgDungeonSet) (gameTime : Int) : Option LFGMgr := do
  let (finished, _) ← checkGroupRoles roles
  if finished then
    let mgr := roles.foldl (fun mgr it =>
      (mgr.setState it.1 .queued).modifyPlayer it.1 fun data => { data with roles := it.2 }) mgr
    let mgr := mgr.setState gguid .queued
    let queueId := mgr.getQueueId gguid
    return mgr.setQueueAt queueId ((mgr.queueAt queueId).addQueueData gguid gameTime dungeons roles)
  else
    return (roles.foldl (fun mgr it => mgr.restoreState it.1) mgr).restoreState gguid

def view (social : LfgSocial) (currTime : Int) : LfgView where
  getState := mgr.getState
  getOldState := mgr.getOldState
  social := social
  gameTime := currTime

def removeObsoleteProposals (currTime : Int) : LFGMgr :=
  (mgr.proposalsStore.items.filter fun proposal => proposal.cancelTime < currTime).foldl
    (fun mgr proposal => mgr.removeProposal proposal .proposalFailed) mgr

/-- `FindGroups` in every queue. -/
def findGroups (social : LfgSocial) (chance : Fin 256 → LfgChance)
    (currTime : Int) : Option LFGMgr :=
  mgr.queuesStore.items.foldlM (fun mgr it => do
    let found ← DungeonFinding.findGroups (mgr.view social currTime) (chance it.1)
      (mgr.queueAt it.1)
    return (found.proposals.map AddedProposal.proposal).foldl addProposal
      (mgr.setQueueAt it.1 found.queue)) mgr

/-- The players of the last proposal, and their groups, are set to have one. -/
def beginProposal : LFGMgr :=
  match mgr.proposalsStore.find mgr.lfgProposalId with
  | none => mgr
  | some proposal =>
    proposal.players.foldl (fun mgr it =>
      let mgr := mgr.setState it.1 .proposal
      let gguid := (mgr.playersStore it.1).group
      if !gguid.isEmpty then mgr.setState gguid .proposal else mgr) mgr

/-- `Update`, as far as it is about proposals. -/
def update (social : LfgSocial) (chance : Fin 256 → LfgChance)
    (currTime : Int) : Option LFGMgr := do
  let mgr := mgr.removeObsoleteProposals currTime
  let found ← mgr.findGroups social chance currTime
  return if found.lfgProposalId ≠ mgr.lfgProposalId then found.beginProposal else found

end LFGMgr
end LegionServer.Source.DungeonFinding
