import Mathlib.Data.Nat.Bitwise

/-!
# Conditions

A condition (`ConditionMgr.h:54-115`, `175-318`) and the mask of the types that it can be true
for (`ConditionMgr.cpp:676-899`). Its values are the numbers of the database.
-/
namespace LegionServer.Source.Conditions

inductive TypeId where
  | object | item | container | unit | player | gameobject | dynamicObject | corpse | areaTrigger
  | sceneObject | conversation
  deriving DecidableEq

def TypeId.toNat : TypeId → Nat
  | .object => 0
  | .item => 1
  | .container => 2
  | .unit => 3
  | .player => 4
  | .gameobject => 5
  | .dynamicObject => 6
  | .corpse => 7
  | .areaTrigger => 8
  | .sceneObject => 9
  | .conversation => 10

def TYPEMASK_UNIT : Nat := 1 <<< 3
def TYPEMASK_PLAYER : Nat := 1 <<< 4
def TYPEMASK_GAMEOBJECT : Nat := 1 <<< 5
def TYPEMASK_CORPSE : Nat := 1 <<< 7
def TYPEMASK_AREATRIGGER : Nat := 1 <<< 8

def GRID_MAP_TYPE_MASK_CORPSE : Nat := 0x01
def GRID_MAP_TYPE_MASK_CREATURE : Nat := 0x02
def GRID_MAP_TYPE_MASK_GAMEOBJECT : Nat := 0x08
def GRID_MAP_TYPE_MASK_PLAYER : Nat := 0x10
def GRID_MAP_TYPE_MASK_AREATRIGGER : Nat := 0x20
def GRID_MAP_TYPE_MASK_ALL : Nat := 0xFF

inductive ConditionType where
  | none | aura | item | itemEquipped | zoneId | reputationRank | team | skill | questRewarded
  | questTaken | drunkenState | worldState | activeEvent | instanceInfo | questNone | unitClass
  | race | achievement | title | spawnmaskDeprecated | gender | unitState | mapId | areaId
  | creatureType | spell | phaseId | level | questComplete | nearCreature | nearGameobject
  | objectEntryGuidLegacy | typeMaskLegacy | relationTo | reactionTo | distanceTo | alive | hpVal
  | hpPct | realmAchievement | inWater | terrainSwap | standState | dailyQuestDone | charmed
  | petType | taxi | questState | questObjectiveProgress | difficultyId | gamemaster
  | objectEntryGuid | typeMask | battlePetCount | scenarioStep | sceneInProgress
  | playerCondition
  deriving DecidableEq

/-- The enumerators by their values. -/
def conditionTypes : List ConditionType :=
  [.none, .aura, .item, .itemEquipped, .zoneId, .reputationRank, .team, .skill, .questRewarded,
    .questTaken, .drunkenState, .worldState, .activeEvent, .instanceInfo, .questNone, .unitClass,
    .race, .achievement, .title, .spawnmaskDeprecated, .gender, .unitState, .mapId, .areaId,
    .creatureType, .spell, .phaseId, .level, .questComplete, .nearCreature, .nearGameobject,
    .objectEntryGuidLegacy, .typeMaskLegacy, .relationTo, .reactionTo, .distanceTo, .alive, .hpVal,
    .hpPct, .realmAchievement, .inWater, .terrainSwap, .standState, .dailyQuestDone, .charmed,
    .petType, .taxi, .questState, .questObjectiveProgress, .difficultyId, .gamemaster,
    .objectEntryGuid, .typeMask, .battlePetCount, .scenarioStep, .sceneInProgress,
    .playerCondition]

inductive ConditionSourceType where
  | none | creatureLootTemplate | disenchantLootTemplate | fishingLootTemplate
  | gameobjectLootTemplate | itemLootTemplate | mailLootTemplate | millingLootTemplate
  | pickpocketingLootTemplate | prospectingLootTemplate | referenceLootTemplate
  | skinningLootTemplate | spellLootTemplate | spellImplicitTarget | gossipMenu
  | gossipMenuOption | creatureTemplateVehicle | spell | spellClickEvent | questAvailable
  | unused20 | vehicleSpell | smartEvent | npcVendor | spellProc | terrainSwap | phase | graveyard
  | areatrigger | conversationLine | areatriggerClientTriggered | trainerSpell
  | objectIdVisibility | spawnGroup | referenceCondition
  deriving DecidableEq

/-- The source types that the database may have, by their values. -/
def conditionSourceTypes : List ConditionSourceType :=
  [.none, .creatureLootTemplate, .disenchantLootTemplate, .fishingLootTemplate,
    .gameobjectLootTemplate, .itemLootTemplate, .mailLootTemplate, .millingLootTemplate,
    .pickpocketingLootTemplate, .prospectingLootTemplate, .referenceLootTemplate,
    .skinningLootTemplate, .spellLootTemplate, .spellImplicitTarget, .gossipMenu,
    .gossipMenuOption, .creatureTemplateVehicle, .spell, .spellClickEvent, .questAvailable,
    .unused20, .vehicleSpell, .smartEvent, .npcVendor, .spellProc, .terrainSwap, .phase, .graveyard,
    .areatrigger, .conversationLine, .areatriggerClientTriggered, .trainerSpell,
    .objectIdVisibility, .spawnGroup]

structure ConditionId where
  sourceGroup : Nat
  sourceEntry : Int
  sourceId : Nat
  deriving DecidableEq

structure Condition where
  sourceType : ConditionSourceType := .none
  sourceGroup : Nat := 0
  sourceEntry : Int := 0
  sourceId : Nat := 0
  elseGroup : Nat := 0
  conditionType : ConditionType := .none
  conditionValue1 : Nat := 0
  conditionValue2 : Nat := 0
  conditionValue3 : Nat := 0
  errorType : Nat := 0
  errorTextId : Nat := 0
  referenceId : Nat := 0
  scriptId : Nat := 0
  conditionTarget : Nat := 0
  negativeCondition : Bool := false
  deriving DecidableEq

namespace Condition

def isLoaded (c : Condition) : Bool :=
  c.conditionType != .none || c.referenceId != 0 || c.scriptId != 0

def id (c : Condition) : ConditionId := ⟨c.sourceGroup, c.sourceEntry, c.sourceId⟩

def getMaxAvailableConditionTargets (c : Condition) : Nat :=
  match c.sourceType with
  | .spell | .spellImplicitTarget | .creatureTemplateVehicle | .vehicleSpell | .spellClickEvent
  | .gossipMenu | .gossipMenuOption | .smartEvent | .npcVendor | .spellProc => 2
  | _ => 1

/-- The types of `CONDITION_OBJECT_ENTRY_GUID` that have a mask. -/
def entryGuidMask (typeId : Nat) : Nat :=
  if typeId = TypeId.unit.toNat then GRID_MAP_TYPE_MASK_CREATURE
  else if typeId = TypeId.player.toNat then GRID_MAP_TYPE_MASK_PLAYER
  else if typeId = TypeId.gameobject.toNat then GRID_MAP_TYPE_MASK_GAMEOBJECT
  else if typeId = TypeId.corpse.toNat then GRID_MAP_TYPE_MASK_CORPSE
  else if typeId = TypeId.areaTrigger.toNat then GRID_MAP_TYPE_MASK_AREATRIGGER
  else 0

def typeMaskMask (typeMask : Nat) : Nat :=
  (if typeMask &&& TYPEMASK_UNIT ≠ 0 then
    GRID_MAP_TYPE_MASK_CREATURE ||| GRID_MAP_TYPE_MASK_PLAYER else 0) |||
  (if typeMask &&& TYPEMASK_PLAYER ≠ 0 then GRID_MAP_TYPE_MASK_PLAYER else 0) |||
  (if typeMask &&& TYPEMASK_GAMEOBJECT ≠ 0 then GRID_MAP_TYPE_MASK_GAMEOBJECT else 0) |||
  (if typeMask &&& TYPEMASK_CORPSE ≠ 0 then GRID_MAP_TYPE_MASK_CORPSE else 0) |||
  (if typeMask &&& TYPEMASK_AREATRIGGER ≠ 0 then GRID_MAP_TYPE_MASK_AREATRIGGER else 0)

/-- `GetSearcherTypeMaskForCondition`; `none` where it aborts. -/
def getSearcherTypeMaskForCondition (c : Condition) : Option Nat :=
  if c.negativeCondition then some GRID_MAP_TYPE_MASK_ALL
  else
    match c.conditionType with
    | .none => some GRID_MAP_TYPE_MASK_ALL
    | .aura => some (GRID_MAP_TYPE_MASK_CREATURE ||| GRID_MAP_TYPE_MASK_PLAYER)
    | .item => some GRID_MAP_TYPE_MASK_PLAYER
    | .itemEquipped => some GRID_MAP_TYPE_MASK_PLAYER
    | .zoneId => some GRID_MAP_TYPE_MASK_ALL
    | .reputationRank => some GRID_MAP_TYPE_MASK_PLAYER
    | .achievement => some GRID_MAP_TYPE_MASK_PLAYER
    | .team => some GRID_MAP_TYPE_MASK_PLAYER
    | .unitClass => some (GRID_MAP_TYPE_MASK_CREATURE ||| GRID_MAP_TYPE_MASK_PLAYER)
    | .race => some (GRID_MAP_TYPE_MASK_CREATURE ||| GRID_MAP_TYPE_MASK_PLAYER)
    | .skill => some GRID_MAP_TYPE_MASK_PLAYER
    | .questRewarded => some GRID_MAP_TYPE_MASK_PLAYER
    | .questTaken => some GRID_MAP_TYPE_MASK_PLAYER
    | .questComplete => some GRID_MAP_TYPE_MASK_PLAYER
    | .questNone => some GRID_MAP_TYPE_MASK_PLAYER
    | .activeEvent => some GRID_MAP_TYPE_MASK_ALL
    | .instanceInfo => some GRID_MAP_TYPE_MASK_ALL
    | .mapId => some GRID_MAP_TYPE_MASK_ALL
    | .areaId => some GRID_MAP_TYPE_MASK_ALL
    | .spell => some GRID_MAP_TYPE_MASK_PLAYER
    | .level => some (GRID_MAP_TYPE_MASK_CREATURE ||| GRID_MAP_TYPE_MASK_PLAYER)
    | .drunkenState => some GRID_MAP_TYPE_MASK_PLAYER
    | .nearCreature => some GRID_MAP_TYPE_MASK_ALL
    | .nearGameobject => some GRID_MAP_TYPE_MASK_ALL
    | .objectEntryGuid => some (entryGuidMask c.conditionValue1)
    | .typeMask => some (typeMaskMask c.conditionValue1)
    | .relationTo => some (GRID_MAP_TYPE_MASK_CREATURE ||| GRID_MAP_TYPE_MASK_PLAYER)
    | .reactionTo => some (GRID_MAP_TYPE_MASK_CREATURE ||| GRID_MAP_TYPE_MASK_PLAYER)
    | .distanceTo => some GRID_MAP_TYPE_MASK_ALL
    | .alive => some (GRID_MAP_TYPE_MASK_CREATURE ||| GRID_MAP_TYPE_MASK_PLAYER)
    | .hpVal => some (GRID_MAP_TYPE_MASK_CREATURE ||| GRID_MAP_TYPE_MASK_PLAYER)
    | .hpPct => some (GRID_MAP_TYPE_MASK_CREATURE ||| GRID_MAP_TYPE_MASK_PLAYER)
    | .worldState => some GRID_MAP_TYPE_MASK_ALL
    | .phaseId => some GRID_MAP_TYPE_MASK_ALL
    | .title => some GRID_MAP_TYPE_MASK_PLAYER
    | .gender => some GRID_MAP_TYPE_MASK_PLAYER
    | .unitState => some (GRID_MAP_TYPE_MASK_CREATURE ||| GRID_MAP_TYPE_MASK_PLAYER)
    | .creatureType => some GRID_MAP_TYPE_MASK_CREATURE
    | .realmAchievement => some GRID_MAP_TYPE_MASK_ALL
    | .inWater => some (GRID_MAP_TYPE_MASK_CREATURE ||| GRID_MAP_TYPE_MASK_PLAYER)
    | .terrainSwap => some GRID_MAP_TYPE_MASK_ALL
    | .standState => some (GRID_MAP_TYPE_MASK_CREATURE ||| GRID_MAP_TYPE_MASK_PLAYER)
    | .dailyQuestDone => some GRID_MAP_TYPE_MASK_PLAYER
    | .charmed => some (GRID_MAP_TYPE_MASK_CREATURE ||| GRID_MAP_TYPE_MASK_PLAYER)
    | .petType => some GRID_MAP_TYPE_MASK_PLAYER
    | .taxi => some GRID_MAP_TYPE_MASK_PLAYER
    | .questState => some GRID_MAP_TYPE_MASK_PLAYER
    | .questObjectiveProgress => some GRID_MAP_TYPE_MASK_PLAYER
    | .difficultyId => some GRID_MAP_TYPE_MASK_ALL
    | .gamemaster => some GRID_MAP_TYPE_MASK_PLAYER
    | .battlePetCount => some GRID_MAP_TYPE_MASK_PLAYER
    | .scenarioStep => some GRID_MAP_TYPE_MASK_ALL
    | .sceneInProgress => some GRID_MAP_TYPE_MASK_PLAYER
    | .playerCondition => some GRID_MAP_TYPE_MASK_PLAYER
    | .spawnmaskDeprecated | .objectEntryGuidLegacy | .typeMaskLegacy => none

end Condition

end LegionServer.Source.Conditions
