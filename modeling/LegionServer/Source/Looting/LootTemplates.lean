import LegionServer.Library.Draws
import LegionServer.Source.Looting.Loot
import Mathlib.Algebra.Ring.Int.Defs

/-!
# Loot templates

`LootStoreItem`, `LootTemplate::LootGroup` and `LootTemplate` (`LootMgr.cpp:57-78`, `277-340`,
`371-416`, `446-451`, `556-750`), `LootItem::AllowedForPlayer` and `Loot::AddItem`
(`Loot.cpp:76-127`, `819-843`), and the draws of `Random.cpp:80-84` and `Containers.h:110-115`.
Chances are of any type with the operations of `Chance`; what players are and have is answered
by `LootWorld`.
-/
namespace LegionServer.Source.LootTemplates
open Library

inductive PlayerTeam where
  | HORDE
  | ALLIANCE
  | PANDARIA_NEUTRAL
  deriving DecidableEq

/-- `learnSpells` are the spells of the effects that are triggered on learning. -/
structure ItemTemplate where
  factionHorde : Bool := false
  factionAlliance : Bool := false
  hideUnusableRecipe : Bool := false
  requiredSkill : Nat := 0
  learnSpells : List Nat := []
  ignoreQuestStatus : Bool := false
  followLootRules : Bool := false
  startQuest : Nat := 0
  isWeapon : Bool := false
  isArmor : Bool := false
  quality : Nat := 0
  maxStackSize : Nat := 1
  maxStackSize_pos : 0 < maxStackSize := by decide

/-- `conditions` is `ConditionsReference::Meets`; the counts are those that `IsValid` lets in. -/
structure LootStoreItem (P F : Type) where
  itemid : Nat
  reference : Nat := 0
  chance : F
  lootmode : UInt16 := 1
  needsQuest : Bool := false
  groupid : Nat := 0
  mincount : Nat := 1
  maxcount : Nat := 1
  conditions : P → Bool := fun _ => true
  mincount_pos : 0 < mincount := by decide
  mincount_le : reference = 0 → mincount ≤ maxcount := by decide

structure LootGroup (P F : Type) where
  explicitlyChanced : List (LootStoreItem P F) := []
  equalChanced : List (LootStoreItem P F) := []

structure LootTemplate (P F : Type) where
  entries : List (LootStoreItem P F) := []
  groups : List (Option (LootGroup P F)) := []

/-- The item templates, `LootTemplates_Reference`, the rates, and the players; `referencedAmount`
is a count times `RATE_DROP_ITEM_REFERENCED_AMOUNT`. -/
structure LootWorld (P F : Type) where
  itemTemplate : Nat → Option ItemTemplate
  getLootFor : Nat → Option (LootTemplate P F) := fun _ => none
  referencedAmount : Nat → Nat := id
  rateReferenced : F
  rateQuality : Nat → F
  team : P → PlayerTeam := fun _ => .ALLIANCE
  hasSkill : P → Nat → Bool := fun _ _ => false
  hasSpell : P → Nat → Bool := fun _ _ => false
  hasQuestStatus : P → Nat → Bool := fun _ _ => false
  hasQuestForItem : P → Nat → Bool := fun _ _ => false
  isUsableByLootSpecialization : P → Nat → Bool := fun _ _ => true
  canRollNeedForItem : P → Nat → Bool := fun _ _ => true

/-- What is used of the numbers that chances are. -/
class Chance (F : Type) extends Zero F, One F, OfNat F 100, Sub F, Mul F, LT F, LE F where
  decidableLT : DecidableLT F
  decidableLE : DecidableLE F
  zero_le_zero : (0 : F) ≤ 0
  zero_lt_hundred : (0 : F) < 100

instance Chance.decLT {F : Type} [Chance F] : DecidableLT F := Chance.decidableLT

instance Chance.decLE {F : Type} [Chance F] : DecidableLE F := Chance.decidableLE

/-- Chances of whole percents. -/
instance : Chance Int where
  decidableLT := inferInstance
  decidableLE := inferInstance
  zero_le_zero := by decide
  zero_lt_hundred := by decide

/-- What `rand_chance` returns. -/
structure RandChance (F : Type) [Chance F] where
  value : F
  nonneg : 0 ≤ value
  lt : value < 100

instance {F : Type} [Chance F] : Inhabited (RandChance F) :=
  ⟨⟨0, Chance.zero_le_zero, Chance.zero_lt_hundred⟩⟩

/-- The items of each looter's loot: a stack has its count, and the entry that it was made of. -/
abbrev PersonalLoot (P F : Type) := P → List (LootStoreItem P F × Nat)

section Allowed

variable {P F : Type} (world : LootWorld P F)

/-- `AllowedForPlayer`; `masterLooter` says that the player is that of the given loot. -/
def LootWorld.allowedForPlayer (player : P) (masterLooter : Bool) (itemid : Nat)
    (needsQuest followLootRules strictUsabilityCheck : Bool) (conditions : P → Bool) : Bool :=
  if !conditions player then false
  else
    match world.itemTemplate itemid with
    | none => false
    | some proto =>
      if proto.factionHorde && decide (world.team player ≠ .HORDE) then false
      else if proto.factionAlliance && decide (world.team player ≠ .ALLIANCE) then false
      else if masterLooter && followLootRules then true
      else if proto.hideUnusableRecipe && (!world.hasSkill player proto.requiredSkill ||
          proto.learnSpells.any (world.hasSpell player)) then false
      else if !proto.ignoreQuestStatus &&
          (needsQuest || (proto.startQuest != 0 && world.hasQuestStatus player proto.startQuest)) &&
          !world.hasQuestForItem player itemid then false
      else if strictUsabilityCheck && (((proto.isWeapon || proto.isArmor) &&
          !world.isUsableByLootSpecialization player itemid) ||
          !world.canRollNeedForItem player itemid) then false
      else true

/-- The call without a loot that all the callers below make. -/
def LootWorld.allows (player : P) (strictUsabilityCheck : Bool) (item : LootStoreItem P F) : Bool :=
  world.allowedForPlayer player false item.itemid item.needsQuest
    (!item.needsQuest || ((world.itemTemplate item.itemid).map (·.followLootRules)).getD false)
    strictUsabilityCheck item.conditions

/-- `LootGroupInvalidSelector`. -/
def LootWorld.invalidSelector (lootMode : UInt16) (personalLooter : Option P)
    (item : LootStoreItem P F) : Bool :=
  if item.lootmode &&& lootMode = 0 then true
  else
    match personalLooter with
    | some looter => !world.allows looter true item
    | none => false

def LootGroup.hasDropForPlayer (group : LootGroup P F) (player : P) (strictUsabilityCheck : Bool) :
    Bool :=
  group.explicitlyChanced.any (world.allows player strictUsabilityCheck) ||
    group.equalChanced.any (world.allows player strictUsabilityCheck)

def LootTemplate.groupOf (template : LootTemplate P F) (groupId : Nat) : Option (LootGroup P F) :=
  (template.groups[groupId - 1]?).join

/-- `LootTemplate::HasDropForPlayer`, for references of at most the depth. -/
def hasDropForPlayer (player : P) (strictUsabilityCheck : Bool) :
    Nat → LootTemplate P F → Nat → Option Bool
  | 0, _, _ => none
  | depth + 1, template, groupId =>
    if groupId > 0 then
      some ((template.groupOf groupId).any fun group =>
        group.hasDropForPlayer world player strictUsabilityCheck)
    else do
      let found ← template.entries.foldlM
        (fun found item =>
          if found then some true
          else if item.reference > 0 then
            match world.getLootFor item.reference with
            | none => some false
            | some referenced =>
              hasDropForPlayer player strictUsabilityCheck depth referenced item.groupid
          else some (world.allows player strictUsabilityCheck item))
        false
      some (found || template.groups.any fun group =>
        group.any fun group => group.hasDropForPlayer world player strictUsabilityCheck)

end Allowed

section Rolls

variable {F : Type} [Chance F]

abbrev Rolls (F : Type) [Chance F] (α : Type) := Draws (RandChance F × Nat) α

def randChance : Rolls F F := do
  let outcome ← draw
  pure outcome.1.value

/-- Inclusive on both sides. -/
def urand (min max : Nat) : Rolls F Nat := do
  let outcome ← draw
  pure (min + outcome.2 % (max - min + 1))

def selectRandomContainerElement {α : Type} (container : List α) : Rolls F α := do
  let i ← urand 0 (container.length - 1)
  ofOption container[i]?

def rollChance (chance : F) : Rolls F Bool := do
  let roll ← randChance
  pure (decide (chance > roll))

variable {P : Type} (world : LootWorld P F)

def LootStoreItem.roll (rate : Bool) (item : LootStoreItem P F) : Rolls F Bool :=
  if item.chance ≥ 100 then pure true
  else if item.reference > 0 then
    rollChance (item.chance * (if rate then world.rateReferenced else 1))
  else
    rollChance (item.chance * match world.itemTemplate item.itemid with
      | some proto => if rate then world.rateQuality proto.quality else 1
      | none => 1)

/-- The loop of `LootGroup::Roll` over the entries with chances. -/
def pickChanced : F → List (LootStoreItem P F) → Option (LootStoreItem P F)
  | _, [] => none
  | roll, item :: rest =>
    if item.chance ≥ 100 then some item
    else if roll - item.chance < 0 then some item
    else pickChanced (roll - item.chance) rest

namespace LootGroup

variable (lootMode : UInt16) (personalLooter : Option P) (group : LootGroup P F)

/-- First the entries with chances are checked. -/
def rollExplicit : Rolls F (Option (LootStoreItem P F)) :=
  let possibleLoot :=
    group.explicitlyChanced.filter fun item => !world.invalidSelector lootMode personalLooter item
  if possibleLoot.isEmpty then pure none
  else do
    let roll ← randChance
    pure (pickChanced roll possibleLoot)

/-- One of the others if nothing is selected yet. -/
def rollEqual : Rolls F (Option (LootStoreItem P F)) :=
  let possibleLoot :=
    group.equalChanced.filter fun item => !world.invalidSelector lootMode personalLooter item
  if possibleLoot.isEmpty then pure none
  else do
    let item ← selectRandomContainerElement possibleLoot
    pure (some item)

def roll : Rolls F (Option (LootStoreItem P F)) := do
  match ← group.rollExplicit world lootMode personalLooter with
  | some item => pure (some item)
  | none => group.rollEqual world lootMode personalLooter

end LootGroup

variable [DecidableEq P]

/-- The loop of `AddItem` over the stacks. -/
def addStacks (item : LootStoreItem P F) (maxStackSize : Nat) :
    Nat → Nat → List (LootStoreItem P F × Nat) → List (LootStoreItem P F × Nat)
  | 0, _, items => items
  | numStacks + 1, count, items =>
    if items.length < Looting.MAX_NR_LOOT_ITEMS then
      addStacks item maxStackSize numStacks (count - maxStackSize)
        (items ++ [(item, min count maxStackSize)])
    else items

/-- `AddItem` of a looter's loot. -/
def addItem (looter : P) (item : LootStoreItem P F) (loots : PersonalLoot P F) :
    Rolls F (PersonalLoot P F) :=
  match world.itemTemplate item.itemid with
  | none => pure loots
  | some proto => do
    let count ← urand item.mincount item.maxcount
    let numStacks := count / proto.maxStackSize + if count % proto.maxStackSize ≠ 0 then 1 else 0
    pure (Function.update loots looter
      (addStacks item proto.maxStackSize numStacks count (loots looter)))

/-- `LootGroup::Process`, for the loot of `owner`. -/
def LootGroup.process (lootMode : UInt16) (owner : P) (personalLooter : Option P)
    (group : LootGroup P F) (loots : PersonalLoot P F) : Rolls F (PersonalLoot P F) := do
  match ← group.roll world lootMode personalLooter with
  | some item => addItem world owner item loots
  | none => pure loots

/-- An entry that is not grouped; `processReferenced` is the recursion. -/
def processEntry (rate : Bool) (lootMode : UInt16) (owner : P) (personalLooter : Option P)
    (processReferenced : LootTemplate P F → Nat → PersonalLoot P F → Rolls F (PersonalLoot P F))
    (loots : PersonalLoot P F) (item : LootStoreItem P F) : Rolls F (PersonalLoot P F) :=
  if item.lootmode &&& lootMode = 0 then pure loots
  else do
    let taken ← item.roll world rate
    if !taken then pure loots
    else if item.reference > 0 then
      match world.getLootFor item.reference with
      | none => pure loots
      | some referenced =>
        (List.range (world.referencedAmount item.maxcount)).foldlM
          (fun loots _ => processReferenced referenced item.groupid loots) loots
    else if personalLooter.all fun looter => world.allows looter true item then
      addItem world owner item loots
    else pure loots

/-- `LootTemplate::Process`, for references of at most the depth. -/
def process (rate : Bool) (lootMode : UInt16) (owner : P) (personalLooter : Option P) :
    Nat → LootTemplate P F → Nat → PersonalLoot P F → Rolls F (PersonalLoot P F)
  | 0, _, _, _ => ofOption none
  | depth + 1, template, groupId, loots =>
    if groupId > 0 then
      match template.groupOf groupId with
      | some group => group.process world lootMode owner personalLooter loots
      | none => pure loots
    else do
      let loots ← template.entries.foldlM
        (processEntry world rate lootMode owner personalLooter fun referenced groupId loots =>
          process rate lootMode owner personalLooter depth referenced groupId loots) loots
      template.groups.reduceOption.foldlM
        (fun loots group => group.process world lootMode owner personalLooter loots) loots

def getLootersForItem (predicate : P → Option Bool) : List P → Option (List P)
  | [] => some []
  | looter :: rest => do
    let canLoot ← predicate looter
    let others ← getLootersForItem predicate rest
    some (if canLoot then looter :: others else others)

/-- Between the rounds of a reference; `stopped` is its `break`. -/
structure ReferenceRounds (P F : Type) where
  loots : PersonalLoot P F
  gotLoot : List P := []
  stopped : Bool := false

variable (looters : List P)

/-- A round of a reference: nobody gets a second item before all have one. -/
def referenceRound (rate : Bool) (lootMode : UInt16) (depth : Nat) (referenced : LootTemplate P F)
    (groupId : Nat) (rounds : ReferenceRounds P F) : Rolls F (ReferenceRounds P F) :=
  if rounds.stopped then pure rounds
  else do
    let lootersForItem ← ofOption (getLootersForItem
      (fun looter => hasDropForPlayer world looter true depth referenced groupId) looters)
    if lootersForItem.isEmpty then pure { rounds with stopped := true }
    else do
      let newLooters := lootersForItem.filter fun looter => looter ∉ rounds.gotLoot
      let chosenLooter ← selectRandomContainerElement
        (if newLooters.isEmpty then lootersForItem else newLooters)
      let loots ← process world rate lootMode chosenLooter (some chosenLooter) depth referenced
        groupId rounds.loots
      pure { loots, gotLoot :=
        (if newLooters.isEmpty then [] else rounds.gotLoot) ++ [chosenLooter] }

/-- An entry of `ProcessPersonalLoot` that is not grouped. -/
def processPersonalEntry (rate : Bool) (lootMode : UInt16) (depth : Nat)
    (loots : PersonalLoot P F) (item : LootStoreItem P F) : Rolls F (PersonalLoot P F) :=
  if item.lootmode &&& lootMode = 0 then pure loots
  else do
    let taken ← item.roll world rate
    if !taken then pure loots
    else if item.reference > 0 then
      match world.getLootFor item.reference with
      | none => pure loots
      | some referenced => do
        let rounds ← (List.range (world.referencedAmount item.maxcount)).foldlM
          (fun rounds _ =>
            referenceRound world looters rate lootMode depth referenced item.groupid rounds)
          { loots }
        pure rounds.loots
    else
      let lootersForItem := looters.filter fun looter => world.allows looter true item
      if lootersForItem.isEmpty then pure loots
      else do
        let chosenLooter ← selectRandomContainerElement lootersForItem
        addItem world chosenLooter item loots

/-- A group of `ProcessPersonalLoot`, which is rolled for no looter. -/
def processPersonalGroup (lootMode : UInt16) (loots : PersonalLoot P F) (group : LootGroup P F) :
    Rolls F (PersonalLoot P F) :=
  let lootersForGroup := looters.filter fun looter => group.hasDropForPlayer world looter true
  if lootersForGroup.isEmpty then pure loots
  else do
    let chosenLooter ← selectRandomContainerElement lootersForGroup
    group.process world lootMode chosenLooter none loots

/-- `LootTemplate::ProcessPersonalLoot`, for references of at most the depth. -/
def processPersonalLoot (rate : Bool) (lootMode : UInt16) (depth : Nat)
    (template : LootTemplate P F) (loots : PersonalLoot P F) : Rolls F (PersonalLoot P F) := do
  let loots ← template.entries.foldlM
    (processPersonalEntry world looters rate lootMode depth) loots
  template.groups.reduceOption.foldlM (processPersonalGroup world looters lootMode) loots

end Rolls

end LegionServer.Source.LootTemplates
