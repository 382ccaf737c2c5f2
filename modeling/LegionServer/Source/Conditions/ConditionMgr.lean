import LegionServer.Library.GroupWalk
import LegionServer.Source.Conditions.Condition

/-!
# The condition manager

The loading of the `conditions` table (`ConditionMgr.cpp:1264-1368`, with the checks of
`2116-2683`), the two walks over a list of conditions (`940-1042`) and the lookups by the key of
a list (`1104-1231`). Linking the loaded lists
to loot templates, gossip menus, spells and phases is left out. A walk gets a depth for its
recursion through references; it has no result when that is not enough.
-/
namespace LegionServer.Source.Conditions
open Library

def COMP_TYPE_MAX : Nat := 5

def toInt32 (value : Nat) : Int := (value : Int).bmod (2 ^ 32)

abbrev ConditionStore := ConditionSourceType → ConditionId → Option (List Condition)

/-- Where the lists that a reference stands for are looked up. -/
def templateId (id : Nat) : ConditionId := ⟨id, 0, 0⟩

def elseGroupStore : GroupWalk Condition Bool where
  group := Condition.elseGroup
  top := true
  meet := and
  dead := not

def elseGroupSearcherTypeMasks : GroupWalk Condition Nat where
  group := Condition.elseGroup
  top := GRID_MAP_TYPE_MASK_ALL
  meet := Nat.land
  dead mask := mask == 0

section Walks

variable (store : ConditionStore) (meets : Condition → Option Bool)

/-- `IsObjectMeetToConditionList`, with the references that it does not find. -/
def isObjectMeetToConditionList : Nat → List Condition → Option (Bool × List Nat)
  | 0, _ => none
  | depth + 1, conditions =>
    (elseGroupStore.run (fun condition =>
      if condition.referenceId ≠ 0 then
        match store .referenceCondition (templateId condition.referenceId) with
        | some ref => isObjectMeetToConditionList depth ref
        -- Checked at loading, should never happen.
        | none => some (true, [condition.referenceId])
      else (meets condition).map fun met => (met, []))
      (conditions.filter Condition.isLoaded)).map fun walked =>
        (walked.1.items.any Prod.snd, walked.2)

def isObjectMeetToConditions (depth : Nat) (conditions : List Condition) :
    Option (Bool × List Nat) :=
  if conditions.isEmpty then some (true, [])
  else isObjectMeetToConditionList store meets depth conditions

/-- `GetSearcherTypeMaskForConditionList`; an assertion that fails gives no result either. -/
def getSearcherTypeMaskForConditionList : Nat → List Condition → Option Nat
  | 0, _ => none
  | depth + 1, conditions =>
    if conditions.isEmpty then some GRID_MAP_TYPE_MASK_ALL
    else if conditions.all Condition.isLoaded then
      (elseGroupSearcherTypeMasks.run (N := Nat) (fun condition =>
        if condition.referenceId ≠ 0 then
          match store .referenceCondition (templateId condition.referenceId) with
          | some ref => (getSearcherTypeMaskForConditionList depth ref).map fun mask => (mask, [])
          | none => none
        else condition.getSearcherTypeMaskForCondition.map fun mask => (mask, []))
        conditions).map fun walked =>
          walked.1.items.foldl (fun mask group => mask ||| group.2) 0
    else none

end Walks

/-- A row of the `conditions` table. -/
structure ConditionRow where
  sourceTypeOrReferenceId : Int
  sourceGroup : Nat := 0
  sourceEntry : Int := 0
  sourceId : Nat := 0
  elseGroup : Nat := 0
  conditionTypeOrReference : Int
  conditionTarget : Nat := 0
  conditionValue1 : Nat := 0
  conditionValue2 : Nat := 0
  conditionValue3 : Nat := 0
  negativeCondition : Bool := false
  errorType : Nat := 0
  errorTextId : Nat := 0
  scriptName : String := ""

/-- What the checks look up: whether an id exists, and what belongs to it. -/
structure DataStores where
  spellInfo : Nat → Bool
  itemTemplate : Nat → Bool
  /-- An area that is a zone. -/
  zone : Nat → Bool
  faction : Nat → Bool
  skillLine : Nat → Bool
  configMaxSkillValue : Nat
  questTemplate : Nat → Bool
  gameEvent : Nat → Bool
  achievement : Nat → Bool
  map : Nat → Bool
  creatureTemplate : Nat → Bool
  gameObjectTemplate : Nat → Bool
  /-- The entry of a spawn. -/
  creatureData : Nat → Option Nat
  gameObjectData : Nat → Option Nat
  worldStateTemplate : Nat → Bool
  phase : Nat → Bool
  charTitle : Nat → Bool
  /-- The limit of the progress of an objective. -/
  questObjective : Nat → Option Int
  difficulty : Nat → Bool
  battlePetSpecies : Nat → Bool
  scenarioStep : Nat → Bool
  sceneScriptPackage : Nat → Bool
  playerCondition : Nat → Bool
  scriptId : String → Nat
  /-- `isSourceTypeValid`: the source group that it leaves, `none` for an invalid source. -/
  sourceGroupOf : Condition → Option Nat

def ALLIANCE : Nat := 469
def HORDE : Nat := 67
def MAX_SPELL_EFFECTS : Nat := 32
def MAX_QUEST_STATUS : Nat := 7
def CLASSMASK_ALL_PLAYABLE : Nat := 0xFFF
def RACEMASK_ALL_PLAYABLE : Nat := 0x3FA007FF
def GENDER_FEMALE : Nat := 1
def DRUNKEN_SMASHED : Nat := 3
def RELATION_MAX : Nat := 6
def UNIT_STATE_ALL_STATE_SUPPORTED : Nat := 0x3FF7FFFF
def CREATURE_TYPE_GAS_CLOUD : Nat := 13
def UNIT_STAND_STATE_SUBMERGED : Nat := 9
def MAX_PET_TYPE : Nat := 4
def INSTANCE_INFO_GUID_DATA : Nat := 1
def DEFAULT_MAX_BATTLE_PETS_PER_SPECIES : Nat := 3

namespace Condition

variable (c : Condition)

/-- The two legacy types and their values. -/
def convertLegacy : Condition :=
  match c.conditionType with
  | .objectEntryGuidLegacy =>
    { c with
      conditionType := .objectEntryGuid
      conditionValue1 := if c.conditionValue1 ≤ TypeId.conversation.toNat then c.conditionValue1
        else TypeId.object.toNat }
  | .typeMaskLegacy =>
    { c with conditionType := .typeMask, conditionValue1 := c.conditionValue1 % 2 ^ 11 }
  | _ => c

/-- The spawn that `CONDITION_OBJECT_ENTRY_GUID` names, with its entry. -/
def checkSpawn (template : Nat → Bool) (spawn : Nat → Option Nat) : Bool :=
  (c.conditionValue2 == 0 || template c.conditionValue2) && (c.conditionValue3 == 0 ||
      (spawn c.conditionValue3).any fun entry =>
        c.conditionValue2 == 0 || entry == c.conditionValue2)

def checkEntryGuid (s : DataStores) : Bool :=
  if c.conditionValue1 = TypeId.unit.toNat then c.checkSpawn s.creatureTemplate s.creatureData
  else if c.conditionValue1 = TypeId.gameobject.toNat then
    c.checkSpawn s.gameObjectTemplate s.gameObjectData
  else c.conditionValue1 == TypeId.player.toNat || c.conditionValue1 == TypeId.corpse.toNat

/-- The target that a condition is set against. -/
def checkOtherTarget : Bool :=
  c.conditionValue1 < c.getMaxAvailableConditionTargets && c.conditionValue1 != c.conditionTarget

/-- The switch of `isConditionTypeValid`. -/
def checkValues (s : DataStores) : Bool :=
  match c.conditionType with
  | .aura => s.spellInfo c.conditionValue1 && c.conditionValue2 < MAX_SPELL_EFFECTS
  | .item => s.itemTemplate c.conditionValue1 && c.conditionValue2 != 0
  | .itemEquipped => s.itemTemplate c.conditionValue1
  | .zoneId => s.zone c.conditionValue1
  | .reputationRank => s.faction c.conditionValue1
  | .team => c.conditionValue1 == ALLIANCE || c.conditionValue1 == HORDE
  | .skill =>
    s.skillLine c.conditionValue1 && 1 ≤ c.conditionValue2 &&
      c.conditionValue2 ≤ s.configMaxSkillValue
  | .questState => c.conditionValue2 < 1 <<< MAX_QUEST_STATUS && s.questTemplate c.conditionValue1
  | .questRewarded | .questTaken | .questNone | .questComplete | .dailyQuestDone =>
    s.questTemplate c.conditionValue1
  | .activeEvent => s.gameEvent c.conditionValue1
  | .achievement | .realmAchievement => s.achievement c.conditionValue1
  | .unitClass => c.conditionValue1 ||| CLASSMASK_ALL_PLAYABLE == CLASSMASK_ALL_PLAYABLE
  | .race => c.conditionValue1 ||| RACEMASK_ALL_PLAYABLE == RACEMASK_ALL_PLAYABLE
  | .gender => c.conditionValue1 % 2 ^ 8 ≤ GENDER_FEMALE
  | .mapId => s.map c.conditionValue1
  | .spell => s.spellInfo c.conditionValue1
  | .level => c.conditionValue2 < COMP_TYPE_MAX
  | .drunkenState => c.conditionValue1 ≤ DRUNKEN_SMASHED
  | .nearCreature => s.creatureTemplate c.conditionValue1
  | .nearGameobject => s.gameObjectTemplate c.conditionValue1
  | .objectEntryGuid => c.checkEntryGuid s
  | .typeMask =>
    c.conditionValue1 != 0 &&
      c.conditionValue1 ||| (TYPEMASK_UNIT ||| TYPEMASK_PLAYER ||| TYPEMASK_GAMEOBJECT |||
        TYPEMASK_CORPSE) == (TYPEMASK_UNIT ||| TYPEMASK_PLAYER ||| TYPEMASK_GAMEOBJECT |||
        TYPEMASK_CORPSE)
  | .relationTo => c.checkOtherTarget && c.conditionValue2 < RELATION_MAX
  | .reactionTo => c.checkOtherTarget && c.conditionValue2 != 0
  | .distanceTo => c.checkOtherTarget && c.conditionValue3 < COMP_TYPE_MAX
  | .hpVal => c.conditionValue2 < COMP_TYPE_MAX
  | .hpPct => c.conditionValue1 ≤ 100 && c.conditionValue2 < COMP_TYPE_MAX
  | .worldState => s.worldStateTemplate c.conditionValue1
  | .phaseId => s.phase c.conditionValue1
  | .title => s.charTitle c.conditionValue1
  | .unitState => c.conditionValue1 &&& UNIT_STATE_ALL_STATE_SUPPORTED != 0
  | .creatureType => c.conditionValue1 != 0 && c.conditionValue1 ≤ CREATURE_TYPE_GAS_CLOUD
  | .standState =>
    match c.conditionValue1 with
    | 0 => c.conditionValue2 ≤ UNIT_STAND_STATE_SUBMERGED
    | 1 => c.conditionValue2 ≤ 1
    | _ => false
  | .questObjectiveProgress =>
    (s.questObjective c.conditionValue1).any fun limit => toInt32 c.conditionValue3 ≤ limit
  | .petType => c.conditionValue1 < 1 <<< MAX_PET_TYPE
  | .instanceInfo => c.conditionValue3 != INSTANCE_INFO_GUID_DATA
  | .areaId | .alive | .inWater | .terrainSwap | .charmed | .taxi | .gamemaster => true
  | .difficultyId => s.difficulty c.conditionValue1
  | .battlePetCount =>
    s.battlePetSpecies c.conditionValue1 &&
      c.conditionValue2 ≤ DEFAULT_MAX_BATTLE_PETS_PER_SPECIES && c.conditionValue3 < COMP_TYPE_MAX
  | .scenarioStep => s.scenarioStep c.conditionValue1
  | .sceneInProgress => s.sceneScriptPackage c.conditionValue1
  | .playerCondition => s.playerCondition c.conditionValue1
  | .none | .spawnmaskDeprecated | .objectEntryGuidLegacy | .typeMaskLegacy => false

/-- `isConditionTypeValid`, with the condition that it leaves. -/
def isConditionTypeValid (s : DataStores) : Option Condition :=
  let c := c.convertLegacy
  if c.checkValues s && c.conditionTarget < c.getMaxAvailableConditionTargets then some c else none

def canHaveSourceGroupSet : ConditionSourceType → Bool
  | .creatureLootTemplate | .disenchantLootTemplate | .fishingLootTemplate
  | .gameobjectLootTemplate | .itemLootTemplate | .mailLootTemplate | .millingLootTemplate
  | .pickpocketingLootTemplate | .prospectingLootTemplate | .referenceLootTemplate
  | .skinningLootTemplate | .spellLootTemplate | .gossipMenu | .gossipMenuOption | .vehicleSpell
  | .spellImplicitTarget | .spellClickEvent | .smartEvent | .npcVendor | .phase | .graveyard
  | .areatrigger | .trainerSpell | .objectIdVisibility | .referenceCondition => true
  | _ => false

def canHaveSourceIdSet : ConditionSourceType → Bool
  | .smartEvent => true
  | _ => false

end Condition

open Condition

/-- The types that there are; the checks refuse the other numbers. -/
def fetchConditionType (value : Int) : Option ConditionType :=
  if value ≥ 0 then conditionTypes[value.toNat]? else some .none

def fetchSourceType (value : Int) : Option ConditionSourceType :=
  if value ≥ 0 then conditionSourceTypes[value.toNat]? else some .none

def fetchCondition (s : DataStores) (row : ConditionRow) : Option Condition := do
  let conditionType ← fetchConditionType row.conditionTypeOrReference
  let sourceType ← fetchSourceType row.sourceTypeOrReferenceId
  return {
    sourceType
    sourceGroup := row.sourceGroup
    sourceEntry := row.sourceEntry
    sourceId := row.sourceId
    elseGroup := row.elseGroup
    conditionType
    conditionValue1 := row.conditionValue1
    conditionValue2 := row.conditionValue2
    conditionValue3 := row.conditionValue3
    errorType := row.errorType
    errorTextId := row.errorTextId
    scriptId := s.scriptId row.scriptName
    conditionTarget := row.conditionTarget
    negativeCondition := row.negativeCondition }

def checkReference (s : DataStores) (row : ConditionRow) (cond : Condition) : Option Condition :=
  if row.conditionTypeOrReference < 0 then
    if row.conditionTypeOrReference = row.sourceTypeOrReferenceId then none
    else some { cond with referenceId := row.conditionTypeOrReference.natAbs }
  else cond.isConditionTypeValid s

/-- The key of a reference template, or a valid source. -/
def checkSource (s : DataStores) (row : ConditionRow) (cond : Condition) : Option Condition :=
  if row.sourceTypeOrReferenceId < 0 then
    some { cond with
      sourceType := .referenceCondition
      sourceGroup := row.sourceTypeOrReferenceId.natAbs }
  else (s.sourceGroupOf cond).map fun sourceGroup => { cond with sourceGroup }

/-- The body of the loop of `LoadConditions`, up to the condition that is stored. -/
def loadRow (s : DataStores) (row : ConditionRow) : Option Condition := do
  let cond ← fetchCondition s row
  let cond ← checkReference s row cond
  let cond ← checkSource s row cond
  if cond.sourceGroup ≠ 0 ∧ canHaveSourceGroupSet cond.sourceType = false then none
  else if cond.sourceId ≠ 0 ∧ canHaveSourceIdSet cond.sourceType = false then none
  else
    let errorType := if cond.sourceType ≠ .spell then 0 else cond.errorType
    some { cond with errorType, errorTextId := if errorType = 0 then 0 else cond.errorTextId }

namespace ConditionStore

def empty : ConditionStore := fun _ _ => none

def add (store : ConditionStore) (cond : Condition) : ConditionStore := fun sourceType id =>
  if cond.sourceType = sourceType ∧ cond.id = id then
    some ((store sourceType id).getD [] ++ [cond])
  else store sourceType id

end ConditionStore

def loadConditions (s : DataStores) (rows : List ConditionRow) : ConditionStore :=
  (rows.filterMap (loadRow s)).foldl ConditionStore.add .empty

section Lookups

variable (store : ConditionStore) (meets : Condition → Option Bool) (depth : Nat)

variable (sourceType : ConditionSourceType)

/-- A list is looked up and evaluated; without a list the answer is true. -/
def isObjectMeeting (id : ConditionId) : Option Bool :=
  match store sourceType id with
  | some conditions => (isObjectMeetToConditions store meets depth conditions).map Prod.fst
  | none => some true

def isObjectMeetingNotGroupedConditions (entry : Nat) : Option Bool :=
  if sourceType ≠ .none then isObjectMeeting store meets depth sourceType ⟨0, toInt32 entry, 0⟩
  else some true

def hasConditionsForNotGroupedEntry (entry : Nat) : Bool :=
  if sourceType ≠ .none then (store sourceType ⟨0, toInt32 entry, 0⟩).isSome else false

def isObjectMeetingSpellClickConditions (creatureId spellId : Nat) : Option Bool :=
  isObjectMeeting store meets depth .spellClickEvent ⟨creatureId, toInt32 spellId, 0⟩

def hasConditionsForSpellClickEvent (creatureId spellId : Nat) : Bool :=
  (store .spellClickEvent ⟨creatureId, toInt32 spellId, 0⟩).isSome

def isObjectMeetingVehicleSpellConditions (creatureId spellId : Nat) : Option Bool :=
  isObjectMeeting store meets depth .vehicleSpell ⟨creatureId, toInt32 spellId, 0⟩

def isObjectMeetingSmartEventConditions (entryOrGuid : Int) (eventId sourceType : Nat) :
    Option Bool :=
  isObjectMeeting store meets depth .smartEvent
    ⟨(eventId + 1) % 2 ^ 32, entryOrGuid.bmod (2 ^ 32), sourceType⟩

def isObjectMeetingVendorItemConditions (creatureId itemId : Nat) : Option Bool :=
  isObjectMeeting store meets depth .npcVendor ⟨creatureId, toInt32 itemId, 0⟩

def getConditionsForAreaTrigger (areaTriggerId : Nat) (isServerSide : Bool) :
    Option (List Condition) :=
  store .areatrigger ⟨areaTriggerId, if isServerSide then 1 else 0, 0⟩

def isObjectMeetingTrainerSpellConditions (trainerId spellId : Nat) : Option Bool :=
  isObjectMeeting store meets depth .npcVendor ⟨trainerId, toInt32 spellId, 0⟩

def isObjectMeetingVisibilityByObjectIdConditions (objectType entry : Nat) : Option Bool :=
  isObjectMeeting store meets depth .objectIdVisibility ⟨objectType, toInt32 entry, 0⟩

end Lookups

end LegionServer.Source.Conditions
