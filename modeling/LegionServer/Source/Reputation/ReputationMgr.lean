import LegionServer.Library.Transition
import Mathlib.Data.List.Nodup

/-!
# The reputation manager

Standings, flags and counters of a character's `ReputationMgr` (`ReputationMgr.cpp:56-215`,
`295-310`, `383-794`). Floating-point arithmetic is a parameter. Packets and criteria are left
out, and so is renown: `IsRenownReputation` returns false.
-/
namespace LegionServer.Source.Reputation
open Library

/-- `ReputationRank`; a rank of -1 is the largest, as it is for the unsigned enumeration. -/
abbrev ReputationRank : Type := UInt32

def REP_HATED : ReputationRank := 0
def REP_HOSTILE : ReputationRank := 1
def REP_HONORED : ReputationRank := 5
def REP_REVERED : ReputationRank := 6
def REP_EXALTED : ReputationRank := 7

/-- `EnumFlag<ReputationFlags>`. -/
abbrev ReputationFlags : Type := BitVec 16

namespace ReputationFlags

/-- The flags by bit number. -/
def visible : Nat := 0
def atWar : Nat := 1
def hidden : Nat := 2
def header : Nat := 3
def peaceful : Nat := 4
def inactive : Nat := 5
def showPropagated : Nat := 6
def headerShowsBar : Nat := 7

def hasFlag (flags : ReputationFlags) (flag : Nat) : Bool := flags.getLsbD flag

def change (flags : ReputationFlags) (flag : Nat) (on : Bool) : ReputationFlags :=
  if on then flags ||| BitVec.twoPow 16 flag else flags &&& ~~~BitVec.twoPow 16 flag

theorem hasFlag_change {flags : ReputationFlags} {flag : Nat} (on : Bool) (h : flag < 16)
    (other : Nat) : (flags.change flag on).hasFlag other =
      if other = flag then on else flags.hasFlag other := by
  rw [hasFlag, change]
  by_cases hother : other = flag
  · subst hother
    cases on <;> simp [h]
  cases on
  · by_cases hlt : other < 16
    · simp [hasFlag, hother, hlt]
    · simp [hasFlag, hother, BitVec.getLsbD_of_ge _ other (Nat.le_of_not_lt hlt)]
  · simp [hasFlag, hother, Ne.symm hother]

@[ext] theorem ext {left right : ReputationFlags} (h : ∀ flag, left.hasFlag flag = right.hasFlag flag) :
    left = right :=
  BitVec.eq_of_getLsbD_eq fun flag _ => h flag

end ReputationFlags

structure FactionEntry where
  id : UInt32
  reputationRaceMask : List UInt64
  reputationClassMask : List Int16
  reputationBase : List Int32
  reputationMax : List Int32
  reputationFlags : List ReputationFlags
  reputationIndex : Int16
  parentFactionId : UInt16
  paragonFactionId : UInt16
  parentFactionCap : UInt8
  friendshipRepId : UInt8

namespace FactionEntry

def canHaveReputation (entry : FactionEntry) : Bool := entry.reputationIndex ≥ 0

def repListId (entry : FactionEntry) : UInt32 := entry.reputationIndex.toInt32.toUInt32

end FactionEntry

/-- `sFactionStore`: one faction an id of 16 bits, as other tables refer to it, and one faction
a reputation index. -/
structure FactionStore where
  entries : List FactionEntry
  ids_nodup : (entries.map FactionEntry.id).Nodup
  indexes_nodup :
    ((entries.filter FactionEntry.canHaveReputation).map FactionEntry.repListId).Nodup
  ids_short : ∀ entry ∈ entries, entry.id < 65536

def FactionStore.lookupEntry (store : FactionStore) (id : UInt32) : Option FactionEntry :=
  store.entries.find? fun entry => entry.id = id

structure ParagonReputation where
  levelThreshold : Int32
  questId : UInt32

/-- Floating-point numbers, as far as they are needed. -/
structure FloatArithmetic (F : Type*) where
  ofInt : Int32 → F
  mul : F → F → F
  /-- `int32(f)`. -/
  toInt : F → Int32
  isZero : F → Bool

/-- A faction that `RepSpilloverTemplate` names. -/
structure SpilloverFaction (F : Type*) where
  faction : UInt32
  rate : F
  rank : UInt32

structure ReputationData (F : Type*) where
  store : FactionStore
  friendshipRepReactions : UInt8 → Option (List Int32)
  paragonReputation : UInt32 → Option ParagonReputation
  repSpilloverTemplate : UInt32 → Option (List (SpilloverFaction F))
  factionTeamList : UInt32 → Option (List UInt32)
  parentFactionMod : UInt32 → F × F
  arithmetic : FloatArithmetic F
  /-- `int32(floor((float)standing * rate + 0.5f))`. -/
  reputationGain : Int32 → Int32
  /-- The bit of the race in race masks. -/
  race : UInt64
  classMask : UInt32

structure QuestView where
  /-- `GetQuestStatus(questID) == QUEST_STATUS_NONE`. -/
  none : UInt32 → Bool
  /-- The quest exists and the character has its level. -/
  available : UInt32 → Bool

structure FactionState where
  id : UInt32
  reputationListId : UInt32
  standing : Int32
  flags : ReputationFlags
  needSave : Bool

def FactionState.setFlag (flag : Nat) (on : Bool) (state : FactionState) : FactionState :=
  { state with flags := state.flags.change flag on, needSave := true }

section
variable (flag : Nat) (on : Bool) (state : FactionState)

@[simp] theorem FactionState.id_setFlag :
    (state.setFlag flag on).id = state.id := rfl

@[simp] theorem FactionState.reputationListId_setFlag :
    (state.setFlag flag on).reputationListId = state.reputationListId := rfl

@[simp] theorem FactionState.standing_setFlag :
    (state.setFlag flag on).standing = state.standing := rfl

end

structure ReputationMgr where
  factions : List FactionState := []
  visibleFactionCount : UInt8 := 0
  honoredFactionCount : UInt8 := 0
  reveredFactionCount : UInt8 := 0
  exaltedFactionCount : UInt8 := 0

def reputationRankThresholds : List Int32 := [-42000, -6000, -3000, 0, 3000, 9000, 21000, 42000]

/-- The loop of `ReputationToRankHelper`. -/
def reputationToRankHelper : List Int32 → Int32 → Int32 → Int32
  | [], _, rank => rank
  | threshold :: thresholds, standing, rank =>
    if standing ≥ threshold then reputationToRankHelper thresholds standing (rank + 1) else rank

namespace ReputationData

variable {F : Type*} (data : ReputationData F)

variable (entry : FactionEntry)

def reputationToRank (standing : Int32) : ReputationRank :=
  match data.friendshipRepReactions entry.friendshipRepId with
  | some thresholds => (reputationToRankHelper thresholds standing (-1)).toUInt32
  | none => (reputationToRankHelper reputationRankThresholds standing (-1)).toUInt32

def matchesRaceAndClass (i : Nat) : Bool :=
  let raceMask := entry.reputationRaceMask.getD i 0
  let classMask := (entry.reputationClassMask.getD i 0).toInt32.toUInt32
  (raceMask &&& data.race != 0 || (raceMask == 0 && classMask != 0)) &&
    (classMask &&& data.classMask != 0 || classMask == 0)

/-- `GetFactionDataIndexForRaceAndClass`; `none` for its -1. -/
def factionDataIndex : Option Nat :=
  (List.range 4).find? (data.matchesRaceAndClass entry)

def getBaseReputation : Int32 :=
  match data.factionDataIndex entry with
  | none => 0
  | some i => entry.reputationBase.getD i 0

def getBaseRank : ReputationRank :=
  data.reputationToRank entry (data.getBaseReputation entry)

def isParagonReputation : Bool := (data.paragonReputation entry.id).isSome

def getDefaultStateFlags : ReputationFlags :=
  let flags := match data.factionDataIndex entry with
    | none => 0
    | some i => entry.reputationFlags.getD i 0
  if (data.paragonReputation entry.id).isSome then flags.change ReputationFlags.showPropagated true
  else flags

def getMinReputation : Int32 :=
  match data.friendshipRepReactions entry.friendshipRepId with
  | some thresholds => thresholds.headD 0
  | none => reputationRankThresholds.headD 0

end ReputationData

namespace ReputationMgr

def find (mgr : ReputationMgr) (listId : UInt32) : Option FactionState :=
  mgr.factions.find? fun state => state.reputationListId = listId

def change (mgr : ReputationMgr) (listId : UInt32) (f : FactionState → FactionState) : ReputationMgr :=
  { mgr with
    factions := mgr.factions.map fun state =>
      if state.reputationListId = listId then f state else state }

/-- `_factions[listId] = state`. -/
def put (mgr : ReputationMgr) (state : FactionState) : ReputationMgr :=
  { mgr with
    factions := mgr.factions.filter (fun old => old.reputationListId ≠ state.reputationListId) ++
      [state] }

def updateRankCounters (mgr : ReputationMgr) (oldRank newRank : ReputationRank) : ReputationMgr :=
  let step (count : UInt8) (rank : ReputationRank) : UInt8 :=
    count - (if oldRank ≥ rank then 1 else 0) + if newRank ≥ rank then 1 else 0
  { mgr with
    exaltedFactionCount := step mgr.exaltedFactionCount REP_EXALTED
    reveredFactionCount := step mgr.reveredFactionCount REP_REVERED
    honoredFactionCount := step mgr.honoredFactionCount REP_HONORED }

variable {F : Type*} (data : ReputationData F) (mgr : ReputationMgr)

variable (entry : FactionEntry)

def getState : Option FactionState :=
  if entry.canHaveReputation then mgr.find entry.repListId else none

def getReputation : Int32 :=
  match mgr.getState entry with
  | some state => data.getBaseReputation entry + state.standing
  | none => 0

def getRank : ReputationRank :=
  data.reputationToRank entry (mgr.getReputation data entry)

variable (quests : QuestView)

def getMaxReputation (entry : FactionEntry) : Int32 :=
  match data.paragonReputation entry.id with
  | some paragon =>
    let reputation := mgr.getReputation data entry
    let cap := reputation + paragon.levelThreshold - reputation % paragon.levelThreshold - 1
    if quests.none paragon.questId then cap + paragon.levelThreshold else cap
  | none =>
    match data.friendshipRepReactions entry.friendshipRepId with
    | some thresholds => thresholds.getLastD 0
    | none =>
      match data.factionDataIndex entry with
      | some i => entry.reputationMax.getD i 0
      | none => reputationRankThresholds.getLastD 0

def initialState : FactionState where
  id := entry.id
  reputationListId := entry.repListId
  standing := 0
  flags := data.getDefaultStateFlags entry
  needSave := true

/-- The body of the loop of `Initialize`. -/
def initializeFaction : ReputationMgr :=
  if entry.canHaveReputation then
    let state := initialState data entry
    let mgr := if state.flags.hasFlag ReputationFlags.visible then
      { mgr with visibleFactionCount := mgr.visibleFactionCount + 1 } else mgr
    let mgr := if entry.friendshipRepId = 0 then
      mgr.updateRankCounters REP_HOSTILE (data.getBaseRank entry) else mgr
    mgr.put state
  else mgr

def initializeFactions : ReputationMgr := data.store.entries.foldl (initializeFaction data) {}

/-- `SetVisible(FactionState*)` does nothing: the faction is forced invisible. -/
def cannotShow (id : UInt32) (flags : ReputationFlags) : Bool :=
  flags.hasFlag ReputationFlags.hidden ||
    (flags.hasFlag ReputationFlags.header && !flags.hasFlag ReputationFlags.headerShowsBar) ||
    (data.paragonReputation id).isSome

def setVisibleState (state : FactionState) : ReputationMgr :=
  if cannotShow data state.id state.flags || state.flags.hasFlag ReputationFlags.visible then mgr
  else
    { mgr.change state.reputationListId (FactionState.setFlag ReputationFlags.visible true) with
      visibleFactionCount := mgr.visibleFactionCount + 1 }

/-- `SetVisible(FactionEntry const*)`. -/
def setVisible : ReputationMgr :=
  if !entry.canHaveReputation then mgr
  else
    match mgr.find entry.repListId with
    | none => mgr
    | some state => mgr.setVisibleState data state

/-- "Do not allow to declare war to our own faction". -/
def refusesWar (state : FactionState) : Bool :=
  state.flags.hasFlag ReputationFlags.peaceful &&
    match data.store.lookupEntry state.id with
    | some entry => mgr.getRank data entry > REP_HATED
    | none => false

/-- `SetAtWar(FactionState*, bool)`. -/
def setAtWarState (state : FactionState) (atWar : Bool) : ReputationMgr :=
  if atWar && mgr.refusesWar data state then mgr
  else if state.flags.hasFlag ReputationFlags.atWar = atWar then mgr
  else mgr.change state.reputationListId (FactionState.setFlag ReputationFlags.atWar atWar)

/-- `SetAtWar(RepListID, bool)`. -/
def setAtWar (repListId : UInt32) (on : Bool) : ReputationMgr :=
  match mgr.find repListId with
  | none => mgr
  | some state =>
    if state.flags.hasFlag ReputationFlags.hidden || state.flags.hasFlag ReputationFlags.header then mgr
    else mgr.setAtWarState data state on

/-- "always invisible or hidden faction can't be inactive". -/
def cannotRest (flags : ReputationFlags) : Bool :=
  flags.hasFlag ReputationFlags.hidden || flags.hasFlag ReputationFlags.header ||
    !flags.hasFlag ReputationFlags.visible

/-- `SetInactive(FactionState*, bool)`. -/
def setInactiveState (state : FactionState) (inactive : Bool) : ReputationMgr :=
  if cannotRest state.flags then mgr
  else if state.flags.hasFlag ReputationFlags.inactive = inactive then mgr
  else mgr.change state.reputationListId (FactionState.setFlag ReputationFlags.inactive inactive)

/-- `SetInactive(RepListID, bool)`. -/
def setInactive (repListId : UInt32) (on : Bool) : ReputationMgr :=
  match mgr.find repListId with
  | none => mgr
  | some state => mgr.setInactiveState state on

/-- The standing that a call asks for, between the bounds of the faction. -/
def newStanding (entry : FactionEntry) (oldStanding standing : Int32) (incremental : Bool) :
    Int32 :=
  let standing := if incremental then data.reputationGain standing + oldStanding else standing
  let max := mgr.getMaxReputation data quests entry
  let min := data.getMinReputation entry
  if standing > max then max else if standing < min then min else standing

def setOneFactionReputation (entry : FactionEntry) (standing : Int32) (incremental : Bool) :
    ReputationMgr :=
  match mgr.find entry.repListId with
  | none => mgr
  | some state =>
    let baseRep := data.getBaseReputation entry
    let oldStanding := state.standing + baseRep
    let standing := mgr.newStanding data quests entry oldStanding standing incremental
    let oldRank := data.reputationToRank entry oldStanding
    let newRank := data.reputationToRank entry standing
    let paragon := data.isParagonReputation entry
    let mgr := if !paragon && newRank ≤ REP_HOSTILE then mgr.setAtWarState data state true else mgr
    let mgr := if !paragon && entry.friendshipRepId = 0 then mgr.updateRankCounters oldRank newRank
      else mgr
    let mgr := mgr.change state.reputationListId fun s =>
      { s with standing := standing - baseRep, needSave := true }
    match mgr.find state.reputationListId with
    | none => mgr
    | some state => mgr.setVisibleState data state

/-- `SetOneFactionReputation` gives the reward quest: the paragon level changes. -/
def givesRewardQuest (entry : FactionEntry) (standing : Int32) (incremental : Bool) : Bool :=
  match mgr.find entry.repListId, data.paragonReputation entry.id with
  | some state, some paragon =>
    let oldStanding := state.standing + data.getBaseReputation entry
    let standing := mgr.newStanding data quests entry oldStanding standing incremental
    oldStanding / paragon.levelThreshold != standing / paragon.levelThreshold
  | _, _ => false

/-- A call of `SetOneFactionReputation` in a loop of `SetReputation`, under its condition. -/
structure Attempt where
  entry : FactionEntry
  standing : Int32
  applies : ReputationMgr → Bool

def attempt (incremental : Bool) (mgr : ReputationMgr) (call : Attempt) : ReputationMgr :=
  if call.applies mgr then
    mgr.setOneFactionReputation data quests call.entry call.standing incremental
  else mgr

/-- The loop over the factions of a spillover template, which `ObjectMgr` found in the store. -/
def templateAttempts (standing : Int32) (factions : List (SpilloverFaction F)) : List Attempt :=
  factions.filterMap fun spillover =>
    if spillover.faction = 0 then none
    else (data.store.lookupEntry spillover.faction).map fun entry =>
      { entry
        standing := data.arithmetic.toInt
          (data.arithmetic.mul (data.arithmetic.ofInt standing) spillover.rate)
        applies := fun mgr => mgr.getRank data entry ≤ spillover.rank }

/-- "Spillover to affiliated factions". -/
def teamAttempts (spillOverRepOut : F) (incremental : Bool) (team : List UInt32) : List Attempt :=
  team.filterMap fun id =>
    (data.store.lookupEntry id).map fun other =>
      let spilloverRep := data.arithmetic.toInt
        (data.arithmetic.mul spillOverRepOut (data.parentFactionMod other.id).1)
      { entry := other
        standing := spilloverRep
        applies := fun mgr =>
          !(other.id = entry.id || mgr.getRank data other > other.parentFactionCap.toUInt32) &&
            (spilloverRep ≠ 0 || !incremental) }

def affiliatedAttempts (standing : Int32) (incremental : Bool) : List Attempt :=
  let spillOverRepOut := data.arithmetic.ofInt standing
  match data.factionTeamList entry.id with
  | some team => teamAttempts data entry spillOverRepOut incremental team
  | none =>
    let mod := (data.parentFactionMod entry.id).2
    if entry.parentFactionId ≠ 0 && !data.arithmetic.isZero mod then
      let spillOverRepOut := data.arithmetic.mul spillOverRepOut mod
      match data.store.lookupEntry entry.parentFactionId.toUInt32 with
      | none => []
      | some parent =>
        if (mgr.find parent.repListId).any fun state =>
            state.flags.hasFlag ReputationFlags.headerShowsBar then
          [{ entry := parent
             standing := data.arithmetic.toInt spillOverRepOut
             applies := fun _ => true }]
        else
          match data.factionTeamList entry.parentFactionId.toUInt32 with
          | some team => teamAttempts data entry spillOverRepOut incremental team
          | none => []
    else []

def spilloverAttempts (standing : Int32) (incremental noSpillover : Bool) : List Attempt :=
  if noSpillover then []
  else
    match data.repSpilloverTemplate entry.id with
    | some factions => templateAttempts data standing factions
    | none => mgr.affiliatedAttempts data entry standing incremental

def canGainParagonReputationForFaction (entry : FactionEntry) : Bool :=
  (data.store.lookupEntry entry.paragonFactionId.toUInt32).isSome &&
    mgr.getRank data entry == REP_EXALTED &&
    match data.paragonReputation entry.paragonFactionId.toUInt32 with
    | none => false
    | some paragon => quests.available paragon.questId

/-- "spillover done, update faction itself", or its paragon faction. -/
def primaryAttempts (entry : FactionEntry) (standing : Int32) (incremental spillOverOnly : Bool) :
    List Attempt :=
  match mgr.find entry.repListId with
  | none => []
  | some _ =>
    let primary :=
      if incremental && standing > 0 && mgr.canGainParagonReputationForFaction data quests entry then
        (data.store.lookupEntry entry.paragonFactionId.toUInt32).getD entry
      else entry
    [{ entry := primary, standing, applies := fun _ => !spillOverOnly }]

/-- The arguments of `SetReputation`, with the standing as the scripts leave it. -/
structure SetReputationCall where
  quests : QuestView
  entry : FactionEntry
  standing : Int32
  incremental : Bool
  spillOverOnly : Bool := false
  noSpillover : Bool := false

/-- The first half of `SetReputation`. -/
def spillOver (call : SetReputationCall) : ReputationMgr :=
  (mgr.spilloverAttempts data call.entry call.standing call.incremental call.noSpillover).foldl
    (attempt data call.quests call.incremental) mgr

def setReputation (call : SetReputationCall) : ReputationMgr :=
  let mgr := mgr.spillOver data call
  (mgr.primaryAttempts data call.quests call.entry call.standing call.incremental
    call.spillOverOnly).foldl (attempt data call.quests call.incremental) mgr

/-- A row of `character_reputation`. -/
structure Row where
  faction : UInt16
  standing : Int32
  flags : ReputationFlags

/-- The rows of a character: `(guid, faction)` is the primary key. -/
structure CharacterReputation where
  rows : List Row
  factions_nodup : (rows.map Row.faction).Nodup

variable (listId : UInt32)

/-- `SetAtWar` and `SetInactive` on the state at a list id. -/
def onState (f : ReputationMgr → FactionState → ReputationMgr) : ReputationMgr :=
  match mgr.find listId with
  | none => mgr
  | some state => f mgr state

/-- `faction->Standing = fields[1].GetInt32()` and the counters. -/
def loadStanding (standing : Int32) : ReputationMgr :=
  let mgr := mgr.change entry.repListId fun s => { s with standing }
  if entry.friendshipRepId = 0 then
    let baseRep := data.getBaseReputation entry
    mgr.updateRankCounters (data.reputationToRank entry baseRep)
      (data.reputationToRank entry (baseRep + standing))
  else mgr

def loadVisible (dbFactionFlags : ReputationFlags) : ReputationMgr :=
  if dbFactionFlags.hasFlag ReputationFlags.visible then
    mgr.onState listId fun mgr state => mgr.setVisibleState data state
  else mgr

def loadInactive (dbFactionFlags : ReputationFlags) : ReputationMgr :=
  if dbFactionFlags.hasFlag ReputationFlags.inactive then
    mgr.onState listId fun mgr state => mgr.setInactiveState state true
  else mgr

def loadAtWar (dbFactionFlags : ReputationFlags) : ReputationMgr :=
  mgr.onState listId fun mgr state =>
    if dbFactionFlags.hasFlag ReputationFlags.atWar then mgr.setAtWarState data state true
    else if state.flags.hasFlag ReputationFlags.visible then mgr.setAtWarState data state false
    else mgr

/-- "set atWar for hostile". -/
def loadHostile : ReputationMgr :=
  if mgr.getRank data entry ≤ REP_HOSTILE then
    mgr.onState entry.repListId fun mgr state => mgr.setAtWarState data state true
  else mgr

/-- "reset changed flag if values similar to saved in DB". -/
def loadSaved (dbFactionFlags : ReputationFlags) : ReputationMgr :=
  mgr.change listId fun s => if s.flags = dbFactionFlags then { s with needSave := false } else s

/-- The body of the loop of `LoadFromDB`. -/
def loadRow (row : Row) : ReputationMgr :=
  match data.store.lookupEntry row.faction.toUInt32 with
  | none => mgr
  | some entry =>
    if !entry.canHaveReputation then mgr
    else
      let listId := entry.repListId
      let mgr := mgr.loadStanding data entry row.standing
      let mgr := mgr.loadVisible data listId row.flags
      let mgr := mgr.loadInactive listId row.flags
      let mgr := mgr.loadAtWar data listId row.flags
      let mgr := mgr.loadHostile data entry
      mgr.loadSaved listId row.flags

variable (table : CharacterReputation)

def loadFromDB : ReputationMgr :=
  table.rows.foldl (loadRow data) (initializeFactions data)

def rowOf (state : FactionState) : Row := ⟨state.id.toUInt16, state.standing, state.flags⟩

/-- `CHAR_DEL_CHAR_REPUTATION_BY_FACTION` and `CHAR_INS_CHAR_REPUTATION_BY_FACTION`. -/
def replaceRow (row : Row) : CharacterReputation where
  rows := table.rows.filter (fun old => old.faction ≠ row.faction) ++ [row]
  factions_nodup := by
    rw [List.map_append, List.nodup_append]
    refine ⟨table.factions_nodup.sublist (List.filter_sublist.map Row.faction),
      List.nodup_singleton _, fun faction hmem other hother => ?_⟩
    obtain ⟨old, hold, rfl⟩ := List.mem_map.mp hmem
    rw [List.mem_singleton.mp hother]
    exact of_decide_eq_true (List.mem_filter.mp hold).2

/-- The statements of `SaveToDB`. -/
def savedRows : CharacterReputation :=
  mgr.factions.foldl (fun table state =>
    if state.needSave then replaceRow table (rowOf state) else table) table

def saveToDB : ReputationMgr × CharacterReputation :=
  ({ mgr with factions := mgr.factions.map fun state => { state with needSave := false } },
    mgr.savedRows table)

/-- The calls on the manager of a character. Factions given by pointer are in the store. -/
inductive ReputationCall {F : Type*} (data : ReputationData F)
  | initializeFactions
  | loadFromDB (table : CharacterReputation)
  | saveToDB (table : CharacterReputation)
  | setReputation (call : SetReputationCall) (mem : call.entry ∈ data.store.entries)
  | setVisible (entry : FactionEntry) (mem : entry ∈ data.store.entries)
  | setAtWar (repListId : UInt32) (on : Bool)
  | setInactive (repListId : UInt32) (on : Bool)

def ReputationCall.run {F : Type*} {data : ReputationData F} (mgr : ReputationMgr) :
    ReputationCall data → ReputationMgr
  | .initializeFactions => ReputationMgr.initializeFactions data
  | .loadFromDB table => ReputationMgr.loadFromDB data table
  | .saveToDB table => (mgr.saveToDB table).1
  | .setReputation call _ => mgr.setReputation data call
  | .setVisible entry _ => mgr.setVisible data entry
  | .setAtWar repListId on => mgr.setAtWar data repListId on
  | .setInactive repListId on => mgr.setInactive repListId on

def reputationSystem {F : Type*} (data : ReputationData F) :
    System ReputationMgr (ReputationCall data) where
  init mgr := mgr = {}
  step call mgr mgr' := mgr' = call.run mgr

end ReputationMgr

end LegionServer.Source.Reputation
