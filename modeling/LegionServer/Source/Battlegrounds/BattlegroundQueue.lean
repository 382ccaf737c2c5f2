import Mathlib.Data.List.Sort
import LegionServer.Library.Outcome

/-!
# Groups in a queue and the pools they are selected into

`GroupQueueInfo` (`BattlegroundQueue.h:39-51`), the `SelectionPool` of a team and the
loops that fill it (`BattlegroundQueue.cpp:70-125`, `531-600`). A group is known by its
address; wait times, packets and announcements are left out. `back()` of an empty list
and `++` of its end do nothing here.
-/
namespace LegionServer.Source.Battlegrounds

/-- `Team`, and the index `TeamId` of its lists and pools. -/
inductive Team where
  | ALLIANCE
  | HORDE
  deriving DecidableEq, Repr

def Team.other : Team → Team
  | .ALLIANCE => .HORDE
  | .HORDE => .ALLIANCE

inductive InvitationType where
  | BG_QUEUE_INVITATION_TYPE_NO_BALANCE
  | BG_QUEUE_INVITATION_TYPE_BALANCED
  | BG_QUEUE_INVITATION_TYPE_EVEN
  deriving DecidableEq

/-- The address of a `GroupQueueInfo`. -/
abbrev Address := Nat

/-- `players` holds the keys of the map `Players`, in their order. -/
structure GroupQueueInfo (P : Type*) where
  players : List P := []
  team : Team := .ALLIANCE
  arenaTeamId : UInt32 := 0
  joinTime : UInt32 := 0
  removeInviteTime : UInt32 := 0
  isInvitedToBGInstanceGUID : UInt32 := 0
  arenaTeamRating : UInt32 := 0
  arenaMatchmakerRating : UInt32 := 0
  opponentsTeamRating : UInt32 := 0
  opponentsMatchmakerRating : UInt32 := 0

namespace GroupQueueInfo

variable {P : Type*}

def size (ginfo : GroupQueueInfo P) : Nat := ginfo.players.length

def invited (ginfo : GroupQueueInfo P) : Bool := ginfo.isInvitedToBGInstanceGUID != 0

end GroupQueueInfo

/-- `Init` leaves the default value. -/
structure SelectionPool where
  selectedGroups : List Address := []
  playerCount : Nat := 0

section Pool

variable {P : Type*} (groups : Address → GroupQueueInfo P)

namespace SelectionPool

/-- The loop of `KickGroup`: the position of the last group of nearly the size, or else
of the last of the largest groups. -/
def groupToKick (selected : List Address) (size : Nat) : Nat :=
  let sizeAt (i : Nat) := (selected[i]?.map fun ginfo => (groups ginfo).size).getD 0
  ((List.range selected.length).foldl (fun (kick : Bool × Nat) i =>
      if ((sizeAt i : Int) - size).natAbs ≤ 1 then (true, i)
      else if !kick.1 && decide (sizeAt i ≥ sizeAt kick.2) then (kick.1, i)
      else kick)
    (false, 0)).2

/-- `KickGroup`; whether to try to add a new group. -/
def kickGroup (pool : SelectionPool) (size : Nat) : SelectionPool × Bool :=
  if pool.playerCount > 0 then
    let i := groupToKick groups pool.selectedGroups size
    let kicked := (pool.selectedGroups[i]?.map fun ginfo => (groups ginfo).size).getD 0
    ({ selectedGroups := pool.selectedGroups.eraseIdx i, playerCount := pool.playerCount - kicked },
      decide (kicked > size + 1))
  else (pool, true)

/-- `AddGroup`; false when the pool is full. -/
def addGroup (pool : SelectionPool) (ginfo : Address) (desiredCount : Nat) : SelectionPool × Bool :=
  if !(groups ginfo).invited && decide (desiredCount ≥ pool.playerCount + (groups ginfo).size) then
    ({ selectedGroups := pool.selectedGroups ++ [ginfo]
       playerCount := pool.playerCount + (groups ginfo).size }, true)
  else (pool, decide (pool.playerCount < desiredCount))

/-- `for (; index < count && AddGroup(*itr, desiredCount); index++) ++itr;`, and the rest. -/
def addWhile (desiredCount : Nat) : List Address → SelectionPool → List Address × SelectionPool
  | [], pool => ([], pool)
  | ginfo :: rest, pool =>
    match pool.addGroup groups ginfo desiredCount with
    | (pool, true) => addWhile desiredCount rest pool
    | (pool, false) => (ginfo :: rest, pool)

/-- A loop that passes over invited groups and breaks at the first `AddGroup` that fails. -/
def addUninvited (desiredCount : Nat) : List Address → SelectionPool → SelectionPool
  | [], pool => pool
  | ginfo :: rest, pool =>
    if (groups ginfo).invited then addUninvited desiredCount rest pool
    else
      match pool.addGroup groups ginfo desiredCount with
      | (pool, true) => addUninvited desiredCount rest pool
      | (pool, false) => pool

/-- The first loop of `CheckNormalMatch`, and the list from its iterator on. -/
def addUntil (minPlayers maxPlayers : Nat) :
    List Address → SelectionPool → List Address × SelectionPool
  | [], pool => ([], pool)
  | ginfo :: rest, pool =>
    if (groups ginfo).invited then addUntil minPlayers maxPlayers rest pool
    else
      let pool := (pool.addGroup groups ginfo maxPlayers).1
      if pool.playerCount ≥ minPlayers then (ginfo :: rest, pool)
      else addUntil minPlayers maxPlayers rest pool

end SelectionPool

end Pool

/-- One team in `FillPlayersToBG`: its free slots, its pool and what its iterator has
not passed yet. -/
structure FillSide where
  free : Int
  pool : SelectionPool
  rest : List Address

namespace FillSide

variable {P : Type*} (groups : Address → GroupQueueInfo P)

def diff (side : FillSide) : Int := side.free - side.pool.playerCount

def add (side : FillSide) (desiredCount : Int) : FillSide :=
  let added := SelectionPool.addWhile groups desiredCount.toNat side.rest side.pool
  { side with rest := added.1, pool := added.2 }

/-- A round of the loop of `FillPlayersToBG`: kicks a group of `side`, and one of the
`others` if that left none; whether the loop breaks. -/
def balanceRound (side others : FillSide) : FillSide × FillSide × Bool :=
  let kicked := side.pool.kickGroup groups (others.diff - side.diff).toNat
  let after := { side with pool := kicked.1 }
  let after :=
    if kicked.2 then
      after.add groups (if side.free ≥ others.diff then side.free - others.diff else 0)
    else after
  if after.pool.playerCount = 0 then
    if side.free ≤ others.diff + 1 then (after, others, true)
    else
      (after, { others with
        pool := (others.pool.kickGroup groups (others.diff - side.diff).toNat).1 }, false)
  else (after, others, false)

end FillSide

/-!
# The queue of a battleground or arena

`BattlegroundQueue.cpp:129-232`, `283-403`, `425-487`, `489-600`, `602-756` and `768-1003`,
without announcements, packets, average wait times, the counters of invited players and the rating
of a member who leaves.
-/
open Library

def MAX_BATTLEGROUND_BRACKETS : Nat := 12
def BG_BRACKET_ID_FIRST : Fin MAX_BATTLEGROUND_BRACKETS := ⟨0, by decide⟩
def INVITE_ACCEPT_WAIT_TIME : UInt32 := 90000

/-- The two halves of `BattlegroundQueueGroupTypes`, which adds the team. -/
inductive GroupType where
  | BG_QUEUE_PREMADE
  | BG_QUEUE_NORMAL
  deriving DecidableEq

/-- The indexes of `m_QueuedGroups`. -/
structure QueueIndex where
  bracket : Fin MAX_BATTLEGROUND_BRACKETS
  type : GroupType
  team : Team
  deriving DecidableEq

theorem QueueIndex.ne_other (bracket : Fin MAX_BATTLEGROUND_BRACKETS) (type : GroupType)
    (team : Team) : (⟨bracket, type, team⟩ : QueueIndex) ≠ ⟨bracket, type, team.other⟩ := by
  intro heq
  have hteam : team = team.other := congrArg QueueIndex.team heq
  cases team <;> cases hteam

structure BattlegroundQueueTypeId where
  rated : Bool
  teamSize : Nat

/-- `groups` is the memory of the `GroupQueueInfo`s and `live` where one is allocated. -/
structure BattlegroundQueue (P : Type*) where
  queueId : BattlegroundQueueTypeId
  live : Address → Bool := fun _ => false
  groups : Address → GroupQueueInfo P := fun _ => {}
  queuedPlayers : P → Option Address := fun _ => none
  queuedGroups : QueueIndex → List Address := fun _ => []
  selectionPools : Team → SelectionPool := fun _ => {}

inductive QueueFault where
  | cannotFindGroupinfo
  | unfinished

structure BattlegroundTemplate where
  isArena : Bool
  minPlayersPerTeam : Nat
  maxPlayersPerTeam : Nat

/-- A battleground of the free slot queues, with the answers of `GetFreeSlotsForTeam` when
its turn comes. -/
structure FreeSlotBattleground where
  instanceId : UInt32
  isRated : Bool
  bracketId : Fin MAX_BATTLEGROUND_BRACKETS
  isRunning : Bool
  freeSlotsForTeam : Team → Nat

/-- What an update asks the rest of the server for; the two battlegrounds are the answers
of `CreateNewBattleground`. -/
structure Surroundings where
  gameTimeMS : UInt32
  template : Option BattlegroundTemplate
  freeSlotQueue : List FreeSlotBattleground
  invitationType : InvitationType
  isTesting : Bool
  isArenaTesting : Bool
  premadeGroupWaitForMatch : UInt32
  maxRatingDifference : UInt32
  ratingDiscardTimer : UInt32
  premadeBattleground : Option UInt32
  matchBattleground : Option UInt32

namespace BattlegroundQueue

variable {P : Type*}

variable (q : BattlegroundQueue P)

def modifyGroup (ginfo : Address) (write : GroupQueueInfo P → GroupQueueInfo P) :
    BattlegroundQueue P :=
  { q with groups := Function.update q.groups ginfo (write (q.groups ginfo)) }

def setList (index : QueueIndex) (list : List Address) : BattlegroundQueue P :=
  { q with queuedGroups := Function.update q.queuedGroups index list }

def setPool (team : Team) (pool : SelectionPool) : BattlegroundQueue P :=
  { q with selectionPools := Function.update q.selectionPools team pool }

def initPools : BattlegroundQueue P :=
  (q.setPool .ALLIANCE {}).setPool .HORDE {}

section Players

variable [LinearOrder P]

/-- The keys of a map after `map[guid] = ...`. -/
def insertPlayer (players : List P) (guid : P) : List P :=
  if guid ∈ players then players else players.orderedInsert (· ≤ ·) guid

variable (q : BattlegroundQueue P)

/-- `AddGroup`, of a new group at a free address. -/
def addGroup (ginfo : Address) (gameTimeMS : UInt32) (members : List P) (team : Team)
    (bracketId : Fin MAX_BATTLEGROUND_BRACKETS) (isPremade : Bool)
    (arenaRating matchmakerRating arenateamid : UInt32) : BattlegroundQueue P :=
  let index : QueueIndex :=
    ⟨bracketId, if !q.queueId.rated && !isPremade then .BG_QUEUE_NORMAL else .BG_QUEUE_PREMADE, team⟩
  { q with
    live := Function.update q.live ginfo true
    groups := Function.update q.groups ginfo
      { players := members.foldl insertPlayer []
        team
        arenaTeamId := arenateamid
        joinTime := gameTimeMS
        arenaTeamRating := arenaRating
        arenaMatchmakerRating := matchmakerRating }
    queuedPlayers := members.foldl
      (fun queued guid => Function.update queued guid (some ginfo)) q.queuedPlayers
    queuedGroups := Function.update q.queuedGroups index (q.queuedGroups index ++ [ginfo]) }

/-- The search of `RemovePlayer` from the last bracket on: the last of the lists of the
team in the first bracket with the group. -/
def findGroup (ginfo : Address) : Option QueueIndex :=
  (List.finRange MAX_BATTLEGROUND_BRACKETS).reverse.findSome? fun bracket =>
    [GroupType.BG_QUEUE_NORMAL, GroupType.BG_QUEUE_PREMADE].findSome? fun type =>
      let index : QueueIndex := ⟨bracket, type, (q.groups ginfo).team⟩
      if ginfo ∈ q.queuedGroups index then some index else none

/-- `RemovePlayer` up to the removal of the next player of a rated group, who is returned. -/
def removeOne (guid : P) : Except QueueFault (BattlegroundQueue P × Option P) :=
  match q.queuedPlayers guid with
  | none => .ok (q, none)
  | some ginfo =>
    match q.findGroup ginfo with
    | none => .error .cannotFindGroupinfo
    | some index =>
      let players := (q.groups ginfo).players.erase guid
      let q := { q.modifyGroup ginfo fun group => { group with players } with
        queuedPlayers := Function.update q.queuedPlayers guid none }
      if players.isEmpty then
        .ok ({ q.setList index ((q.queuedGroups index).erase ginfo) with
          live := Function.update q.live ginfo false }, none)
      else if !(q.groups ginfo).invited && q.queueId.rated then .ok (q, players.head?)
      else .ok (q, none)

/-- `RemovePlayer`, with its recursion as a loop. -/
def removePlayer (guid : P) : Except QueueFault (BattlegroundQueue P) :=
  let queued := match q.queuedPlayers guid with
    | some ginfo => (q.groups ginfo).size
    | none => 1
  (whileSome .unfinished (fun s : BattlegroundQueue P × Option P => s.2)
    (fun s next => s.1.removeOne next) queued (q, some guid)).map Prod.fst

end Players

def inviteGroupToBG (gameTimeMS : UInt32) (ginfo : Address) (instanceId : UInt32)
    (side : Option Team) : BattlegroundQueue P :=
  let q := match side with
    | some team => q.modifyGroup ginfo fun group => { group with team }
    | none => q
  if !(q.groups ginfo).invited then
    q.modifyGroup ginfo fun group =>
      { group with
        isInvitedToBGInstanceGUID := instanceId
        removeInviteTime := gameTimeMS + INVITE_ACCEPT_WAIT_TIME }
  else q

/-- The loop that invites a selection pool. -/
def inviteSelected (gameTimeMS instanceId : UInt32) (team : Team) : BattlegroundQueue P :=
  (q.selectionPools team).selectedGroups.foldl
    (fun q ginfo => q.inviteGroupToBG gameTimeMS ginfo instanceId (some (q.groups ginfo).team)) q

def invitePools (gameTimeMS instanceId : UInt32) : BattlegroundQueue P :=
  (q.inviteSelected gameTimeMS instanceId .ALLIANCE).inviteSelected gameTimeMS instanceId .HORDE

/-- The loop of `FillPlayersToBG`: `(ali, horde, stopped)`. -/
def balance (groups : Address → GroupQueueInfo P) (ali horde : FillSide) :
    Except QueueFault (FillSide × FillSide × Bool) :=
  whileSome .unfinished (fun (s : FillSide × FillSide × Bool) =>
      if !s.2.2 && decide ((s.1.diff - s.2.1.diff).natAbs > 1) &&
          (decide (s.2.1.pool.playerCount > 0) || decide (s.1.pool.playerCount > 0)) then some ()
      else none)
    (fun s _ =>
      if s.1.diff < s.2.1.diff then .ok (FillSide.balanceRound groups s.1 s.2.1)
      else
        let after := FillSide.balanceRound groups s.2.1 s.1
        .ok (after.2.1, after.1, after.2.2))
    (2 * (ali.rest.length + horde.rest.length) + ali.pool.selectedGroups.length +
      horde.pool.selectedGroups.length)
    (ali, horde, false)

def fillPlayersToBG (invitationType : InvitationType) (bg : FreeSlotBattleground)
    (bracketId : Fin MAX_BATTLEGROUND_BRACKETS) :
    Except QueueFault (BattlegroundQueue P) :=
  let hordeFree : Int := bg.freeSlotsForTeam .HORDE
  let aliFree : Int := bg.freeSlotsForTeam .ALLIANCE
  let aliGroups := q.queuedGroups ⟨bracketId, .BG_QUEUE_NORMAL, .ALLIANCE⟩
  let hordeGroups := q.queuedGroups ⟨bracketId, .BG_QUEUE_NORMAL, .HORDE⟩
  let aliCount : Int := aliGroups.length
  let hordeCount : Int := hordeGroups.length
  let even := invitationType == .BG_QUEUE_INVITATION_TYPE_EVEN && hordeFree == 1 && aliFree == 1 &&
    aliCount != hordeCount
  let aliFree := if even then max (aliFree - max (aliCount - hordeCount) 0) 0 else aliFree
  let hordeFree := if even then max (hordeFree - max (hordeCount - aliCount) 0) 0 else hordeFree
  let ali := FillSide.add q.groups ⟨aliFree, q.selectionPools .ALLIANCE, aliGroups⟩ aliFree
  let horde := FillSide.add q.groups ⟨hordeFree, q.selectionPools .HORDE, hordeGroups⟩ hordeFree
  if invitationType = .BG_QUEUE_INVITATION_TYPE_NO_BALANCE then
    .ok ((q.setPool .ALLIANCE ali.pool).setPool .HORDE horde.pool)
  else
    (balance q.groups ali horde).map fun sides =>
      (q.setPool .ALLIANCE sides.1.pool).setPool .HORDE sides.2.1.pool

/-- The first group of the premade list that waited too long or became too small goes to
the front of the normal list. -/
def movePremade (bracketId : Fin MAX_BATTLEGROUND_BRACKETS) (timeBefore : UInt32)
    (minPlayersPerTeam : Nat) (team : Team) : BattlegroundQueue P :=
  let premade : QueueIndex := ⟨bracketId, .BG_QUEUE_PREMADE, team⟩
  let normal : QueueIndex := ⟨bracketId, .BG_QUEUE_NORMAL, team⟩
  match q.queuedGroups premade with
  | [] => q
  | ginfo :: rest =>
    if !(q.groups ginfo).invited && (decide ((q.groups ginfo).joinTime < timeBefore) ||
        decide ((q.groups ginfo).size < minPlayersPerTeam)) then
      (q.setList normal (ginfo :: q.queuedGroups normal)).setList premade rest
    else q

def checkPremadeMatch (env : Surroundings) (bracketId : Fin MAX_BATTLEGROUND_BRACKETS)
    (minPlayersPerTeam maxPlayersPerTeam : Nat) :
    BattlegroundQueue P × Bool :=
  let notInvited (team : Team) := (q.queuedGroups ⟨bracketId, .BG_QUEUE_PREMADE, team⟩).find?
    fun ginfo => !(q.groups ginfo).invited
  match notInvited .ALLIANCE, notInvited .HORDE with
  | some aliGroup, some hordeGroup =>
    let ali := ((q.selectionPools .ALLIANCE).addGroup q.groups aliGroup maxPlayersPerTeam).1
    let horde := ((q.selectionPools .HORDE).addGroup q.groups hordeGroup maxPlayersPerTeam).1
    let maxPlayers := min ali.playerCount horde.playerCount
    let fill (team : Team) := SelectionPool.addUninvited q.groups maxPlayers
      (q.queuedGroups ⟨bracketId, .BG_QUEUE_NORMAL, team⟩)
    ((q.setPool .ALLIANCE (fill .ALLIANCE ali)).setPool .HORDE (fill .HORDE horde), true)
  | _, _ =>
    let timeBefore := env.gameTimeMS - env.premadeGroupWaitForMatch
    ((q.movePremade bracketId timeBefore minPlayersPerTeam .ALLIANCE).movePremade
      bracketId timeBefore minPlayersPerTeam .HORDE, false)

/-- `CheckNormalMatch`; the loop that reached `minPlayers` broke at a group, past which
the second loop starts. -/
def checkNormalMatch (env : Surroundings) (bracketId : Fin MAX_BATTLEGROUND_BRACKETS)
    (minPlayers maxPlayers : Nat) :
    BattlegroundQueue P × Bool :=
  let first (team : Team) := SelectionPool.addUntil q.groups minPlayers maxPlayers
    (q.queuedGroups ⟨bracketId, .BG_QUEUE_NORMAL, team⟩) (q.selectionPools team)
  let q := (q.setPool .ALLIANCE (first .ALLIANCE).2).setPool .HORDE (first .HORDE).2
  let count (q : BattlegroundQueue P) (team : Team) := (q.selectionPools team).playerCount
  let j := if count q .HORDE < count q .ALLIANCE then Team.HORDE else Team.ALLIANCE
  let full := decide (env.invitationType ≠ .BG_QUEUE_INVITATION_TYPE_NO_BALANCE) &&
    decide (count q .HORDE ≥ minPlayers) && decide (count q .ALLIANCE ≥ minPlayers)
  let q := if full then
      q.setPool j (SelectionPool.addUninvited q.groups (count q j.other) (first j).1.tail
        (q.selectionPools j))
    else q
  if full && decide (((count q .HORDE : Int) - count q .ALLIANCE).natAbs > 2) then (q, false)
  else if env.isTesting && (decide (count q .ALLIANCE > 0) || decide (count q .HORDE > 0)) then
    (q, true)
  else (q, decide (count q .ALLIANCE ≥ minPlayers) && decide (count q .HORDE ≥ minPlayers))

/-- Erases the first `ginfo` that stands after `mark`. -/
def eraseAfter (mark ginfo : Address) : List Address → List Address
  | [] => []
  | first :: rest =>
    if first = mark then first :: rest.erase ginfo else first :: eraseAfter mark ginfo rest

/-- One round of the last loop of `CheckSkirmishForSameFaction`. -/
def moveToOtherTeam (bracketId : Fin MAX_BATTLEGROUND_BRACKETS) (team : Team) (mark : Address)
    (q : BattlegroundQueue P) (ginfo : Address) : BattlegroundQueue P :=
  let origin : QueueIndex := ⟨bracketId, .BG_QUEUE_NORMAL, team⟩
  let target : QueueIndex := ⟨bracketId, .BG_QUEUE_NORMAL, team.other⟩
  let q := q.modifyGroup ginfo fun group => { group with team := team.other }
  let q := q.setList target (ginfo :: q.queuedGroups target)
  q.setList origin (eraseAfter mark ginfo (q.queuedGroups origin))

/-- `CheckSkirmishForSameFaction`; an empty pool has no last group, so none is found. -/
def checkSkirmishForSameFaction (bracketId : Fin MAX_BATTLEGROUND_BRACKETS)
    (minPlayersPerTeam : Nat) :
    BattlegroundQueue P × Bool :=
  if (q.selectionPools .ALLIANCE).playerCount < minPlayersPerTeam &&
      (q.selectionPools .HORDE).playerCount < minPlayersPerTeam then (q, false)
  else
    let team := if (q.selectionPools .HORDE).playerCount = minPlayersPerTeam then Team.HORDE
      else Team.ALLIANCE
    let list := q.queuedGroups ⟨bracketId, .BG_QUEUE_NORMAL, team⟩
    let q := q.setPool team.other {}
    match (q.selectionPools team).selectedGroups.getLast? with
    | none => (q, false)
    | some mark =>
      match list.dropWhile fun ginfo => ginfo ≠ mark with
      | [] => (q, false)
      | _ :: rest =>
        let pool := SelectionPool.addUninvited q.groups minPlayersPerTeam rest {}
        let q := q.setPool team.other pool
        if pool.playerCount ≠ minPlayersPerTeam then (q, false)
        else (pool.selectedGroups.foldl (moveToOtherTeam bracketId team mark) q, true)

/-- The first loop of `BattlegroundQueueUpdate`, over the battlegrounds with free slots. -/
def fillFreeSlots (env : Surroundings) (bracketId : Fin MAX_BATTLEGROUND_BRACKETS) :
    Except QueueFault (BattlegroundQueue P) :=
  env.freeSlotQueue.foldlM (fun q bg =>
      if !bg.isRated && decide (bg.bracketId = bracketId) && bg.isRunning then
        (q.initPools.fillPlayersToBG env.invitationType bg bracketId).map fun q =>
          q.invitePools env.gameTimeMS bg.instanceId
      else .ok q)
    q

/-- The rating of the team to look an opponent for. -/
def ratingOfFront (bracketId : Fin MAX_BATTLEGROUND_BRACKETS) : Option UInt32 :=
  let front (team : Team) :=
    (q.queuedGroups ⟨bracketId, .BG_QUEUE_PREMADE, team⟩).head?.map q.groups
  match front .ALLIANCE, front .HORDE with
  | some front1, some front2 =>
    some (if front1.joinTime < front2.joinTime then front1.arenaMatchmakerRating
      else front2.arenaMatchmakerRating)
  | some front1, none => some front1.arenaMatchmakerRating
  | none, some front2 => some front2.arenaMatchmakerRating
  | none, none => none

/-- "If group match conditions". -/
def matchesRating (env : Surroundings) (arenaRating : UInt32) (ginfo : GroupQueueInfo P) : Bool :=
  let arenaMinRating :=
    if arenaRating ≤ env.maxRatingDifference then 0 else arenaRating - env.maxRatingDifference
  let arenaMaxRating := arenaRating + env.maxRatingDifference
  let discardTime := (env.gameTimeMS - env.ratingDiscardTimer).toInt32
  !ginfo.invited && ((decide (ginfo.arenaMatchmakerRating ≥ arenaMinRating) &&
        decide (ginfo.arenaMatchmakerRating ≤ arenaMaxRating)) ||
      decide (ginfo.joinTime.toInt32 < discardTime))

/-- The two teams of the next rated game: one of each list, or two of one list. -/
def findTeams (env : Surroundings) (bracketId : Fin MAX_BATTLEGROUND_BRACKETS)
    (arenaRating : UInt32) :
    Option (Address × Address) :=
  let list (team : Team) := q.queuedGroups ⟨bracketId, .BG_QUEUE_PREMADE, team⟩
  let matching (ginfo : Address) := matchesRating env arenaRating (q.groups ginfo)
  let second (team : Team) (found : Address) :=
    (((list team).dropWhile fun ginfo => ginfo ≠ found).find? fun ginfo =>
      matching ginfo && decide ((q.groups found).arenaTeamId ≠ (q.groups ginfo).arenaTeamId)).map
      fun ginfo => (found, ginfo)
  match (list .ALLIANCE).find? matching, (list .HORDE).find? matching with
  | some aTeam, some hTeam => some (aTeam, hTeam)
  | some found, none => second .ALLIANCE found
  | none, some found => second .HORDE found
  | none, none => none

/-- Moves a team whose faction changes to the list of its new faction. -/
def moveTeam (bracketId : Fin MAX_BATTLEGROUND_BRACKETS) (side : Team) (ginfo : Address) :
    BattlegroundQueue P :=
  if (q.groups ginfo).team ≠ side then
    let target : QueueIndex := ⟨bracketId, .BG_QUEUE_PREMADE, side⟩
    let origin : QueueIndex := ⟨bracketId, .BG_QUEUE_PREMADE, side.other⟩
    let q := q.setList target (ginfo :: q.queuedGroups target)
    q.setList origin ((q.queuedGroups origin).erase ginfo)
  else q

/-- The rated match of `BattlegroundQueueUpdate`. -/
def ratedMatch (env : Surroundings) (bracketId : Fin MAX_BATTLEGROUND_BRACKETS)
    (arenaRating : UInt32) : BattlegroundQueue P :=
  match if arenaRating = 0 then q.ratingOfFront bracketId else some arenaRating with
  | none => q
  | some arenaRating =>
    match q.findTeams env bracketId arenaRating, env.matchBattleground with
    | some (aTeam, hTeam), some arena =>
      let q := q.modifyGroup aTeam fun group =>
        { group with opponentsTeamRating := (q.groups hTeam).arenaTeamRating }
      let q := q.modifyGroup hTeam fun group =>
        { group with opponentsTeamRating := (q.groups aTeam).arenaTeamRating }
      let q := q.modifyGroup aTeam fun group =>
        { group with opponentsMatchmakerRating := (q.groups hTeam).arenaMatchmakerRating }
      let q := q.modifyGroup hTeam fun group =>
        { group with opponentsMatchmakerRating := (q.groups aTeam).arenaMatchmakerRating }
      let q := (q.moveTeam bracketId .ALLIANCE aTeam).moveTeam bracketId .HORDE hTeam
      let q := q.inviteGroupToBG env.gameTimeMS aTeam arena (some .ALLIANCE)
      q.inviteGroupToBG env.gameTimeMS hTeam arena (some .HORDE)
    | _, _ => q

/-- A new game between premade groups; whether the update goes on. -/
def premadeMatch (env : Surroundings) (bracketId : Fin MAX_BATTLEGROUND_BRACKETS)
    (minPlayersPerTeam maxPlayersPerTeam : Nat) :
    BattlegroundQueue P × Bool :=
  match q.checkPremadeMatch env bracketId minPlayersPerTeam maxPlayersPerTeam with
  | (q, true) =>
    match env.premadeBattleground with
    | none => (q, false)
    | some bg2 => ((q.invitePools env.gameTimeMS bg2).initPools, true)
  | (q, false) => (q, true)

/-- A new normal battleground or an arena that is not rated. -/
def normalMatch (env : Surroundings) (bracketId : Fin MAX_BATTLEGROUND_BRACKETS) (isArena : Bool)
    (minPlayersPerTeam maxPlayersPerTeam : Nat) : BattlegroundQueue P :=
  let checked := match q.checkNormalMatch env bracketId minPlayersPerTeam maxPlayersPerTeam with
    | (q, true) => (q, true)
    | (q, false) =>
      if isArena then q.checkSkirmishForSameFaction bracketId minPlayersPerTeam else (q, false)
  match checked, env.matchBattleground with
  | (q, true), some bg2 => q.invitePools env.gameTimeMS bg2
  | (q, _), _ => q

def update (env : Surroundings) (bracketId : Fin MAX_BATTLEGROUND_BRACKETS) (arenaRating : UInt32) :
    Except QueueFault (BattlegroundQueue P) :=
  let empty (type : GroupType) (team : Team) := (q.queuedGroups ⟨bracketId, type, team⟩).isEmpty
  if empty .BG_QUEUE_PREMADE .ALLIANCE && empty .BG_QUEUE_PREMADE .HORDE &&
      empty .BG_QUEUE_NORMAL .ALLIANCE && empty .BG_QUEUE_NORMAL .HORDE then .ok q
  else
    match env.template with
    | none => .ok q
    | some template =>
      (q.fillFreeSlots env bracketId).map fun q =>
        let maxPlayersPerTeam :=
          if template.isArena then q.queueId.teamSize else template.maxPlayersPerTeam
        let minPlayersPerTeam :=
          if template.isArena then (if env.isArenaTesting then 1 else q.queueId.teamSize)
          else if env.isTesting then 1 else template.minPlayersPerTeam
        let q := q.initPools
        let premade := if template.isArena then (q, true)
          else q.premadeMatch env bracketId minPlayersPerTeam maxPlayersPerTeam
        if !premade.2 then premade.1
        else if !q.queueId.rated then
          premade.1.normalMatch env bracketId template.isArena minPlayersPerTeam maxPlayersPerTeam
        else if template.isArena then premade.1.ratedMatch env bracketId arenaRating
        else premade.1

end BattlegroundQueue

inductive QueueRequest (P : Type*) where
  | addGroup (ginfo : Address) (gameTimeMS : UInt32) (members : List P) (team : Team)
    (bracketId : Fin MAX_BATTLEGROUND_BRACKETS) (isPremade : Bool)
    (arenaRating matchmakerRating arenateamid : UInt32)
  | removePlayer (guid : P)
  | inviteGroupToBG (gameTimeMS : UInt32) (ginfo : Address) (instanceId : UInt32)
    (side : Option Team)
  | update (env : Surroundings) (bracketId : Fin MAX_BATTLEGROUND_BRACKETS) (arenaRating : UInt32)

def BattlegroundQueue.handle {P : Type*} [LinearOrder P] (q : BattlegroundQueue P) :
    QueueRequest P → Except QueueFault (BattlegroundQueue P)
  | .addGroup ginfo gameTimeMS members team bracketId isPremade arenaRating matchmakerRating
      arenateamid =>
    .ok (q.addGroup ginfo gameTimeMS members team bracketId isPremade arenaRating matchmakerRating
      arenateamid)
  | .removePlayer guid => q.removePlayer guid
  | .inviteGroupToBG gameTimeMS ginfo instanceId side =>
    .ok (q.inviteGroupToBG gameTimeMS ginfo instanceId side)
  | .update env bracketId arenaRating => q.update env bracketId arenaRating

end LegionServer.Source.Battlegrounds
