import LegionServer.Source.Battlegrounds.BattlegroundQueue

/-!
# The iterators of the selections

`KickGroup`, `FillPlayersToBG` and the unrated match of `BattlegroundQueueUpdate`
(`BattlegroundQueue.cpp:81-107`, `494-594`, `657-756`, `823-866`) once more, with every
`*itr`, `++itr` and `back()` that the model of `BattlegroundQueue` takes for granted.
-/
namespace LegionServer.Source.Battlegrounds
open Library

/-- `unfinished` is a loop that has not ended. -/
inductive SelectionFault where
  | endDereferenced
  | endIncremented
  | backOfEmpty
  | unfinished
  deriving DecidableEq

namespace Iterators

variable {P : Type*}

/-- `*itr` for the iterator at a position. -/
def dereference (list : List Address) (itr : Nat) : Except SelectionFault Address :=
  match list[itr]? with
  | some ginfo => .ok ginfo
  | none => .error .endDereferenced

section Pool

variable (groups : Address → GroupQueueInfo P)

/-- The loop of `KickGroup`, from `begin` on for both iterators. -/
def groupToKick (selected : List Address) (size : Nat) : Except SelectionFault Nat :=
  ((List.range selected.length).foldlM (fun (kick : Bool × Nat) itr => do
      let ginfo ← dereference selected itr
      if (((groups ginfo).size : Int) - size).natAbs ≤ 1 then .ok (true, itr)
      else if kick.1 then .ok kick
      else
        let toKick ← dereference selected kick.2
        .ok (if (groups ginfo).size ≥ (groups toKick).size then (kick.1, itr) else kick))
    (false, 0)).map Prod.snd

def kickGroup (pool : SelectionPool) (size : Nat) : Except SelectionFault (SelectionPool × Bool) := do
  let itr ← groupToKick groups pool.selectedGroups size
  if pool.playerCount > 0 then
    let ginfo ← dereference pool.selectedGroups itr
    .ok ({ selectedGroups := pool.selectedGroups.eraseIdx itr
           playerCount := pool.playerCount - (groups ginfo).size },
      !decide ((groups ginfo).size ≤ size + 1))
  else .ok (pool, true)

/-- `for (; index < count && AddGroup(*itr, desiredCount); index++) ++itr;` -/
def addWhile (count desiredCount : Nat) : List Address → Nat → SelectionPool →
    Except SelectionFault (List Address × Nat × SelectionPool)
  | [], index, pool => if index < count then .error .endDereferenced else .ok ([], index, pool)
  | ginfo :: rest, index, pool =>
    if index < count then
      match pool.addGroup groups ginfo desiredCount with
      | (pool, true) => addWhile count desiredCount rest (index + 1) pool
      | (pool, false) => .ok (ginfo :: rest, index, pool)
    else .ok (ginfo :: rest, index, pool)

end Pool

/-- A team with the index and the count that its iterator relies on. -/
structure CountedSide extends FillSide where
  index : Nat
  count : Nat

namespace CountedSide

variable (groups : Address → GroupQueueInfo P)

def add (side : CountedSide) (desiredCount : Int) : Except SelectionFault CountedSide := do
  let (rest, index, pool) ←
    addWhile groups side.count desiredCount.toNat side.rest side.index side.pool
  .ok { side with rest := rest, index := index, pool := pool }

/-- A kick from the pool, and the groups that are added for it. -/
def replaceGroup (side others : CountedSide) : Except SelectionFault CountedSide := do
  let (pool, addMore) ← kickGroup groups side.pool (others.diff - side.diff).toNat
  let after := { side with pool := pool }
  if addMore then after.add groups (if side.free ≥ others.diff then side.free - others.diff else 0)
  else .ok after

/-- A round of the loop of `FillPlayersToBG`. -/
def balanceRound (side others : CountedSide) :
    Except SelectionFault (CountedSide × CountedSide × Bool) := do
  let after ← side.replaceGroup groups others
  if after.pool.playerCount = 0 then
    if side.free ≤ others.diff + 1 then .ok (after, others, true)
    else
      let (pool, _) ← kickGroup groups others.pool (others.diff - side.diff).toNat
      .ok (after, { others with pool := pool }, false)
  else .ok (after, others, false)

end CountedSide

/-- The loop of `FillPlayersToBG`, and whether it was left by a `break`. -/
def balance (groups : Address → GroupQueueInfo P) (ali horde : CountedSide) :
    Except SelectionFault (CountedSide × CountedSide × Bool) :=
  whileSome .unfinished (fun s : CountedSide × CountedSide × Bool =>
      if !s.2.2 && decide ((s.1.diff - s.2.1.diff).natAbs > 1) &&
        (decide (s.2.1.pool.playerCount > 0) || decide (s.1.pool.playerCount > 0)) then some ()
      else none)
    (fun s _ =>
      if s.1.diff < s.2.1.diff then CountedSide.balanceRound groups s.1 s.2.1
      else (CountedSide.balanceRound groups s.2.1 s.1).map fun after =>
        (after.2.1, after.1, after.2.2))
    (2 * (ali.rest.length + horde.rest.length) + ali.pool.selectedGroups.length +
      horde.pool.selectedGroups.length)
    (ali, horde, false)

/-- The loops of `FillPlayersToBG`, and whether the last was left by a `break`. -/
def fillSides (groups : Address → GroupQueueInfo P) (invitationType : InvitationType)
    (ali horde : CountedSide) : Except SelectionFault (CountedSide × CountedSide × Bool) := do
  let ali ← ali.add groups ali.free
  let horde ← horde.add groups horde.free
  if invitationType = .BG_QUEUE_INVITATION_TYPE_NO_BALANCE then .ok (ali, horde, false)
  else balance groups ali horde

variable (q : BattlegroundQueue P)

/-- `FillPlayersToBG`, and whether its last loop was left by a `break`. -/
def fillPlayersToBG (invitationType : InvitationType) (bg : FreeSlotBattleground)
    (bracketId : Fin MAX_BATTLEGROUND_BRACKETS) :
    Except SelectionFault (BattlegroundQueue P × Bool) :=
  let hordeFree : Int := bg.freeSlotsForTeam .HORDE
  let aliFree : Int := bg.freeSlotsForTeam .ALLIANCE
  let aliGroups := q.queuedGroups ⟨bracketId, .BG_QUEUE_NORMAL, .ALLIANCE⟩
  let hordeGroups := q.queuedGroups ⟨bracketId, .BG_QUEUE_NORMAL, .HORDE⟩
  let aliCount : Int := aliGroups.length
  let hordeCount : Int := hordeGroups.length
  let even := invitationType == .BG_QUEUE_INVITATION_TYPE_EVEN && hordeFree == 1 && aliFree == 1 &&
    aliCount != hordeCount
  let aliFree := if even then max (aliFree - max (aliCount - hordeCount) 0) 0 else aliFree
  let hordeFree := if even then max (hordeFree - max (hordeCount - aliCount) 0) 0 else hordeFree
  let side (team : Team) (free : Int) (list : List Address) : CountedSide :=
    { free, pool := q.selectionPools team, rest := list, index := 0, count := list.length }
  (fillSides q.groups invitationType (side .ALLIANCE aliFree aliGroups)
    (side .HORDE hordeFree hordeGroups)).map fun (ali, horde, left) =>
      ((q.setPool .ALLIANCE ali.pool).setPool .HORDE horde.pool, left)

/-- The second loop of `CheckNormalMatch`, from behind the group at which the first loop over
the list of the team left off. -/
def addToSmaller (j : Team) (itrTeam : List Address) :
    Except SelectionFault (BattlegroundQueue P) :=
  match itrTeam with
  | [] => .error .endIncremented
  | _ :: rest =>
    .ok (q.setPool j (SelectionPool.addUninvited q.groups (q.selectionPools j.other).playerCount rest
      (q.selectionPools j)))

def checkNormalMatch (env : Surroundings) (bracketId : Fin MAX_BATTLEGROUND_BRACKETS)
    (minPlayers maxPlayers : Nat) :
    Except SelectionFault (BattlegroundQueue P × Bool) :=
  let first (team : Team) := SelectionPool.addUntil q.groups minPlayers maxPlayers
    (q.queuedGroups ⟨bracketId, .BG_QUEUE_NORMAL, team⟩) (q.selectionPools team)
  let q := (q.setPool .ALLIANCE (first .ALLIANCE).2).setPool .HORDE (first .HORDE).2
  let count (q : BattlegroundQueue P) (team : Team) := (q.selectionPools team).playerCount
  let j := if count q .HORDE < count q .ALLIANCE then Team.HORDE else Team.ALLIANCE
  let full := decide (env.invitationType ≠ .BG_QUEUE_INVITATION_TYPE_NO_BALANCE) &&
    decide (count q .HORDE ≥ minPlayers) && decide (count q .ALLIANCE ≥ minPlayers)
  (if full then addToSmaller q j (first j).1 else .ok q).map fun q =>
    if full && decide (((count q .HORDE : Int) - count q .ALLIANCE).natAbs > 2) then (q, false)
    else if env.isTesting && (decide (count q .ALLIANCE > 0) || decide (count q .HORDE > 0)) then
      (q, true)
    else (q, decide (count q .ALLIANCE ≥ minPlayers) && decide (count q .HORDE ≥ minPlayers))

/-- One round of the last loop of `CheckSkirmishForSameFaction`, whose search starts past
`mark`. -/
def moveToOtherTeam (bracketId : Fin MAX_BATTLEGROUND_BRACKETS) (team : Team) (mark : Address)
    (q : BattlegroundQueue P) (ginfo : Address) : Except SelectionFault (BattlegroundQueue P) :=
  if mark ∈ q.queuedGroups ⟨bracketId, .BG_QUEUE_NORMAL, team⟩ then
    .ok (q.moveToOtherTeam bracketId team mark ginfo)
  else .error .endIncremented

def checkSkirmishForSameFaction (bracketId : Fin MAX_BATTLEGROUND_BRACKETS)
    (minPlayersPerTeam : Nat) :
    Except SelectionFault (BattlegroundQueue P × Bool) :=
  if (q.selectionPools .ALLIANCE).playerCount < minPlayersPerTeam &&
      (q.selectionPools .HORDE).playerCount < minPlayersPerTeam then .ok (q, false)
  else
    let team := if (q.selectionPools .HORDE).playerCount = minPlayersPerTeam then Team.HORDE
      else Team.ALLIANCE
    let list := q.queuedGroups ⟨bracketId, .BG_QUEUE_NORMAL, team⟩
    let q := q.setPool team.other {}
    match (q.selectionPools team).selectedGroups.getLast? with
    | none => .error .backOfEmpty
    | some mark =>
      match list.dropWhile fun ginfo => ginfo ≠ mark with
      | [] => .ok (q, false)
      | _ :: rest =>
        let pool := SelectionPool.addUninvited q.groups minPlayersPerTeam rest {}
        let q := q.setPool team.other pool
        if pool.playerCount ≠ minPlayersPerTeam then .ok (q, false)
        else (pool.selectedGroups.foldlM (moveToOtherTeam bracketId team mark) q).map (·, true)

/-- The bounds of `BattlegroundQueueUpdate`. -/
def minPlayersPerTeam (template : BattlegroundTemplate) (env : Surroundings) (teamSize : Nat) : Nat :=
  if template.isArena then (if env.isArenaTesting then 1 else teamSize)
  else if env.isTesting then 1 else template.minPlayersPerTeam

def maxPlayersPerTeam (template : BattlegroundTemplate) (teamSize : Nat) : Nat :=
  if template.isArena then teamSize else template.maxPlayersPerTeam

/-- The condition for a new normal battleground or an arena that is not rated. -/
def unratedMatch (env : Surroundings) (template : BattlegroundTemplate)
    (bracketId : Fin MAX_BATTLEGROUND_BRACKETS) :
    Except SelectionFault (BattlegroundQueue P × Bool) := do
  let minPlayers := minPlayersPerTeam template env q.queueId.teamSize
  let (q, found) ← checkNormalMatch q env bracketId minPlayers
    (maxPlayersPerTeam template q.queueId.teamSize)
  if found then .ok (q, true)
  else if template.isArena then checkSkirmishForSameFaction q bracketId minPlayers
  else .ok (q, false)

end Iterators

end LegionServer.Source.Battlegrounds
