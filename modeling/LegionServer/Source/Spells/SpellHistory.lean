import Mathlib.Data.List.AList
import Mathlib.Algebra.Order.Ring.Int
import LegionServer.Library.Outcome

/-!
# Cooldowns and charges of a unit

`SpellHistory.h` and `SpellHistory.cpp`: the cooldown entries, the index of
category cooldowns that points into them, the state kept over a duel and the
queues of charges. Times are nanoseconds of the system clock, durations are
milliseconds. Packets to clients and the global cooldown are left out.
-/
namespace LegionServer.Source.Spells
open Library

/-- `Clock::time_point::min()`. -/
def timePointMin : Int := -2 ^ 63

def milliseconds (duration : Int) : Int := duration * 1000000

/-- `Seconds(MONTH)`. -/
def InfinityCooldownDelay : Int := 30 * 24 * 60 * 60 * 1000

/-- The value of an `int32` variable after an assignment. -/
def int32 (value : Int) : Int := value.bmod (2 ^ 32)

structure CooldownEntry where
  spellId : Nat := 0
  cooldownEnd : Int := timePointMin
  itemId : Nat := 0
  categoryId : Nat := 0
  categoryEnd : Int := timePointMin
  onHold : Bool := false
  deriving DecidableEq, Repr

/-- A node of `_spellCooldowns`. It keeps its address while it is in the map. -/
structure CooldownNode where
  address : Nat
  entry : CooldownEntry := {}
  deriving DecidableEq, Repr

structure ChargeEntry where
  rechargeStart : Int
  rechargeEnd : Int
  deriving DecidableEq, Repr

/-- `ChargeEntry(Clock::time_point startTime, Duration rechargeTime)`. -/
def ChargeEntry.startingAt (startTime rechargeTime : Int) : ChargeEntry where
  rechargeStart := startTime
  rechargeEnd := startTime + milliseconds rechargeTime

/-- A category without an entry in `_categoryCharges` and one with an empty queue
are treated alike everywhere. -/
structure SpellHistory where
  spellCooldowns : AList (fun _ : Nat => CooldownNode) := ∅
  spellCooldownsBeforeDuel : AList (fun _ : Nat => CooldownEntry) := ∅
  categoryCooldowns : AList (fun _ : Nat => Nat) := ∅
  nextAddress : Nat := 0
  schoolLockouts : Nat → Int := fun _ => 0
  categoryCharges : Nat → List ChargeEntry := fun _ => []

inductive Fault where
  /-- A pointer of `_categoryCooldowns` to an entry that was erased is followed. -/
  | useAfterFree
  | unfinished
  deriving DecidableEq

structure SpellInfo where
  id : Nat
  recoveryTime : Nat := 0
  categoryRecoveryTime : Nat := 0
  category : Nat := 0
  noCategoryCooldownMods : Bool := false
  isCooldownStartedOnEvent : Bool := false
  /-- `PreventionType & SPELL_PREVENTION_TYPE_SILENCE`. -/
  preventedBySilence : Bool := false
  schoolMask : Nat := 0
  deriving DecidableEq, Repr

structure ItemEffect where
  spellID : Nat
  coolDownMSec : Int
  spellCategoryID : Nat
  categoryCoolDownMSec : Int

structure View where
  getSpellInfo : Nat → SpellInfo
  getSpellInfo_id : ∀ spellId, (getSpellInfo spellId).id = spellId
  /-- The effects of an item template. -/
  itemEffects : Nat → List ItemEffect
  /-- `ApplySpellMod(spellInfo, SpellModOp::Cooldown, value)` of the owner of spell mods. -/
  applySpellMod : Option (SpellInfo → Int → Int)
  /-- The product with the cast haste, under `SPELL_AURA_MOD_SPELL_COOLDOWN_BY_HASTE`. -/
  scaledByHaste : SpellInfo → Option (Int → Int)
  /-- The same for `SPELL_AURA_MOD_COOLDOWN_BY_HASTE_REGEN`. -/
  scaledByHasteRegen : SpellInfo → Option (Int → Int)
  /-- `GetTotalAuraModifier(SPELL_AURA_MOD_COOLDOWN)`. -/
  cooldownModifier : Int
  /-- The spells of the player owner, if there is one. -/
  playerSpells : Option (Nat → Bool)
  /-- `GetTotalAuraModifierByMiscValue(SPELL_AURA_MOD_SPELL_CATEGORY_COOLDOWN, categoryId)`. -/
  categoryModifier : Nat → Int
  expiresAtDailyReset : Nat → Bool
  timeToDailyReset : Int
  ignoresSpellCooldown : SpellInfo → Bool
  /-- The spells a school lockout goes through, in ascending order. -/
  knownSpells : List Nat
  knownSpells_nodup : knownSpells.Nodup
  isPlayer : Bool
  hasSpellCategory : Nat → Bool
  getMaxCharges : Nat → Int
  getChargeRecoveryTime : Nat → Int

structure CooldownDurations where
  cooldown : Int
  categoryId : Nat
  categoryCooldown : Int
  deriving DecidableEq

/-- `GetCooldownDurations`. An item effect overrides the spell unless both of its
durations are negative. -/
def getCooldownDurations (view : View) (spellInfo : SpellInfo) (itemId : Nat) : CooldownDurations :=
  let fromSpell : CooldownDurations :=
    ⟨spellInfo.recoveryTime, spellInfo.category, spellInfo.categoryRecoveryTime⟩
  if itemId = 0 then fromSpell
  else
    match (view.itemEffects itemId).find? (·.spellID = spellInfo.id) with
    | none => fromSpell
    | some effect =>
      if effect.coolDownMSec < 0 ∧ effect.categoryCoolDownMSec < 0 then fromSpell
      else ⟨effect.coolDownMSec, effect.spellCategoryID, effect.categoryCoolDownMSec⟩

/-- The modifiers of `StartCooldown`, in their order. -/
def CooldownDurations.modified (view : View) (spellInfo : SpellInfo) (durations : CooldownDurations) :
    CooldownDurations :=
  let durations := match view.applySpellMod with
    | none => durations
    | some applySpellMod =>
      let durations := if durations.cooldown ≥ 0 then
        { durations with cooldown := int32 (applySpellMod spellInfo (int32 durations.cooldown)) }
        else durations
      if durations.categoryCooldown ≥ 0 ∧ !spellInfo.noCategoryCooldownMods then
        { durations with
          categoryCooldown := int32 (applySpellMod spellInfo (int32 durations.categoryCooldown)) }
      else durations
  let scale := fun (durations : CooldownDurations) (haste : Option (Int → Int)) =>
    match haste with
    | none => durations
    | some scaled =>
      { durations with
        cooldown := scaled durations.cooldown
        categoryCooldown := scaled durations.categoryCooldown }
  let durations := scale durations (view.scaledByHaste spellInfo)
  let durations := scale durations (view.scaledByHasteRegen spellInfo)
  let durations :=
    if view.cooldownModifier ≠ 0 ∧ view.playerSpells.all (· spellInfo.id) then
      { durations with cooldown := durations.cooldown + view.cooldownModifier }
    else durations
  if durations.categoryId = 0 then durations
  else
    let modifier := view.categoryModifier durations.categoryId
    let durations := { durations with
      cooldown := if durations.cooldown > 0 then durations.cooldown + modifier
        else durations.cooldown
      categoryCooldown := if durations.categoryCooldown > 0 then
        durations.categoryCooldown + modifier else durations.categoryCooldown }
    if view.expiresAtDailyReset durations.categoryId then
      { durations with categoryCooldown := view.timeToDailyReset }
    else durations

namespace SpellHistory

variable (h : SpellHistory)

/-- What a pointer of `_categoryCooldowns` refers to. -/
def deref (address : Nat) : Except Fault CooldownEntry :=
  match h.spellCooldowns.entries.find? (·.2.address = address) with
  | some node => .ok node.2.entry
  | none => .error .useAfterFree

def nodeAt (spellId : Nat) : CooldownNode :=
  (h.spellCooldowns.lookup spellId).getD { address := h.nextAddress }

/-- The entry under a spell becomes this one; the node is the one that `nodeAt` gives. -/
def setEntry (spellId : Nat) (entry : CooldownEntry) : SpellHistory :=
  { h with
    spellCooldowns := h.spellCooldowns.insert spellId { address := (h.nodeAt spellId).address, entry }
    nextAddress := if spellId ∈ h.spellCooldowns then h.nextAddress else h.nextAddress + 1 }

/-- `_categoryCooldowns[categoryId] = &entry;`, unless there is no category. -/
def setCategory (categoryId address : Nat) : SpellHistory :=
  if categoryId = 0 then h
  else { h with categoryCooldowns := h.categoryCooldowns.insert categoryId address }

def eraseCooldown (spellId : Nat) : SpellHistory :=
  { h with
    categoryCooldowns := h.categoryCooldowns.erase (h.nodeAt spellId).entry.categoryId
    spellCooldowns := h.spellCooldowns.erase spellId }

/-- "scripts can start multiple cooldowns for a given spell, only store the longest one". -/
def storesCooldown (spellId : Nat) (cooldownEnd categoryEnd : Int) (onHold : Bool) : Bool :=
  cooldownEnd > (h.nodeAt spellId).entry.cooldownEnd ||
    categoryEnd > (h.nodeAt spellId).entry.categoryEnd || onHold

def addCooldown (spellId itemId : Nat) (cooldownEnd : Int) (categoryId : Nat) (categoryEnd : Int)
    (onHold : Bool := false) : SpellHistory :=
  if h.storesCooldown spellId cooldownEnd categoryEnd onHold then
    (h.setEntry spellId { spellId, cooldownEnd, itemId, categoryId, categoryEnd, onHold }).setCategory
      categoryId (h.nodeAt spellId).address
  else h.setEntry spellId (h.nodeAt spellId).entry

variable (view : View)

/-- The ends `StartCooldown` stores: of the cooldown and of the category cooldown,
and the category. None if there is nothing to start. -/
def startedCooldown (now : Int) (spellInfo : SpellInfo) (itemId : Nat) (onHold : Bool)
    (forcedCooldown : Option Int) : Option (Int × Nat × Int) :=
  let durations := match forcedCooldown with
    | none => getCooldownDurations view spellInfo itemId
    | some cooldown => ⟨cooldown, 0, 0⟩
  if onHold then
    let catrecTime := if durations.categoryCooldown > 0 then
      now + milliseconds InfinityCooldownDelay else now
    let recTime := if durations.cooldown > 0 then now + milliseconds InfinityCooldownDelay
      else catrecTime
    if recTime ≠ now then some (recTime, durations.categoryId, catrecTime) else none
  else
    let durations := if forcedCooldown.isNone then durations.modified view spellInfo else durations
    let cooldown := max durations.cooldown 0
    let categoryCooldown := max durations.categoryCooldown 0
    if cooldown = 0 ∧ categoryCooldown = 0 then none
    else
      let catrecTime := if categoryCooldown ≠ 0 then now + milliseconds categoryCooldown else now
      let recTime := if cooldown ≠ 0 then now + milliseconds cooldown else catrecTime
      if recTime ≠ now then some (recTime, durations.categoryId, catrecTime) else none

def startCooldown (now : Int) (h : SpellHistory) (spellInfo : SpellInfo) (itemId : Nat)
    (onHold : Bool) (forcedCooldown : Option Int) : SpellHistory :=
  match startedCooldown view now spellInfo itemId onHold forcedCooldown with
  | none => h
  | some (recTime, categoryId, catrecTime) =>
    h.addCooldown spellInfo.id itemId recTime categoryId catrecTime onHold

/-- What `ModifySpellCooldown` makes of an entry. "Because category cooldown existence
is tied to regular cooldown, we cannot allow a situation where regular cooldown is
shorter than category". -/
def modifiedEntry (entry : CooldownEntry) (cooldownMod : Int) (withoutCategoryCooldown : Bool) :
    CooldownEntry :=
  let cooldownEnd := entry.cooldownEnd + milliseconds cooldownMod
  if entry.categoryId = 0 then { entry with cooldownEnd }
  else
    let categoryEnd := if withoutCategoryCooldown then entry.categoryEnd
      else entry.categoryEnd + milliseconds cooldownMod
    { entry with cooldownEnd := max cooldownEnd categoryEnd, categoryEnd }

/-- `ModifySpellCooldown` at an entry. -/
def modifyNode (now : Int) (h : SpellHistory) (spellId : Nat) (cooldownMod : Int)
    (withoutCategoryCooldown : Bool) : SpellHistory :=
  let entry := modifiedEntry (h.nodeAt spellId).entry cooldownMod withoutCategoryCooldown
  let h := h.setEntry spellId entry
  if entry.cooldownEnd ≤ now then h.eraseCooldown spellId else h

/-- `ModifySpellCooldown(spellId, cooldownMod, withoutCategoryCooldown)`. -/
def modifySpellCooldown (now : Int) (h : SpellHistory) (spellId : Nat) (cooldownMod : Int)
    (withoutCategoryCooldown : Bool) : SpellHistory :=
  if cooldownMod = 0 ∨ spellId ∉ h.spellCooldowns then h
  else h.modifyNode now spellId cooldownMod withoutCategoryCooldown

/-- The loop of `ModifyCoooldowns` over the entries that are left. The iterator
advances past an entry only if the predicate rejects it or the entry is erased. -/
def modifyCooldowns (now : Int) (predicate : Nat → CooldownEntry → Bool) (cooldownMod : Int)
    (withoutCategoryCooldown : Bool) : Nat → List Nat → SpellHistory → Except Fault SpellHistory
  | _, [], h => .ok h
  | 0, _ :: _, _ => .error .unfinished
  | fuel + 1, spellId :: rest, h =>
    if predicate spellId (h.nodeAt spellId).entry then
      let h := h.modifyNode now spellId cooldownMod withoutCategoryCooldown
      let left := if spellId ∈ h.spellCooldowns then spellId :: rest else rest
      modifyCooldowns now predicate cooldownMod withoutCategoryCooldown fuel left h
    else modifyCooldowns now predicate cooldownMod withoutCategoryCooldown fuel rest h

def resetCooldown (spellId : Nat) : SpellHistory :=
  if spellId ∈ h.spellCooldowns then h.eraseCooldown spellId else h

def resetCooldowns (predicate : Nat → CooldownEntry → Bool) : SpellHistory :=
  h.spellCooldowns.keys.foldl (fun h spellId =>
      if predicate spellId (h.nodeAt spellId).entry then h.eraseCooldown spellId else h) h

def resetAllCooldowns : SpellHistory :=
  { h with categoryCooldowns := ∅, spellCooldowns := ∅ }

def hasCooldown (h : SpellHistory) (spellInfo : SpellInfo) (itemId : Nat) : Bool :=
  if view.ignoresSpellCooldown spellInfo then false
  else if spellInfo.id ∈ h.spellCooldowns then true
  else
    let category := (getCooldownDurations view spellInfo itemId).categoryId
    if category = 0 then false else category ∈ h.categoryCooldowns

/-- In milliseconds, rounded down. -/
def remainingTime (now ending : Int) : Int :=
  if ending < now then 0 else (ending - now) / 1000000

def getRemainingCooldown (now : Int) (spellInfo : SpellInfo) : Except Fault Int :=
  match h.spellCooldowns.lookup spellInfo.id with
  | some node => .ok (remainingTime now node.entry.cooldownEnd)
  | none =>
    match h.categoryCooldowns.lookup spellInfo.category with
    | none => .ok 0
    | some address => (h.deref address).map fun entry => remainingTime now entry.categoryEnd

/-- Whether a school lockout may touch the cooldown of a spell. -/
def isLockable (spellInfo : SpellInfo) (schoolMask : Nat) : Bool :=
  !spellInfo.isCooldownStartedOnEvent && spellInfo.preventedBySilence &&
    schoolMask &&& spellInfo.schoolMask ≠ 0

/-- One round of the loop of `LockSpellSchool`. -/
def lockSpell (now : Int) (schoolMask : Nat) (lockoutTime : Int) (h : SpellHistory)
    (spellId : Nat) : Except Fault SpellHistory := do
  let spellInfo := view.getSpellInfo spellId
  if isLockable spellInfo schoolMask then
    let remaining ← h.getRemainingCooldown now spellInfo
    if remaining < lockoutTime then
      .ok (h.addCooldown spellId 0 (now + milliseconds lockoutTime) 0 now)
    else .ok h
  else .ok h

def lockSpellSchool (now : Int) (h : SpellHistory) (schoolMask : Nat) (lockoutTime : Int) :
    Except Fault SpellHistory :=
  let lockoutEnd := now + milliseconds lockoutTime
  let schoolLockouts := fun i =>
    if i < 7 ∧ schoolMask.testBit i then lockoutEnd else h.schoolLockouts i
  view.knownSpells.foldlM (lockSpell view now schoolMask lockoutTime) { h with schoolLockouts }

def saveCooldownStateBeforeDuel : SpellHistory :=
  { h with
    spellCooldownsBeforeDuel := h.spellCooldowns.entries.foldl
      (fun saved node => saved.insert node.1 node.2.entry) ∅ }

/-- `10 * MINUTE * IN_MILLISECONDS`. -/
def professionCooldown : Nat := 10 * 60 * 1000

/-- "add all profession CDs created while in duel (if any)". -/
def withProfessionCooldowns (h : SpellHistory) : AList fun _ : Nat => CooldownEntry :=
  h.spellCooldowns.entries.foldl (fun saved node =>
      let spellInfo := view.getSpellInfo node.1
      if spellInfo.recoveryTime > professionCooldown ∨
          spellInfo.categoryRecoveryTime > professionCooldown then
        saved.insert node.1 node.2.entry
      else saved) h.spellCooldownsBeforeDuel

/-- One round of the loop that restores the entries from before the duel. -/
def restoreEntry (saved : Σ _ : Nat, CooldownEntry) : SpellHistory :=
  if !saved.2.onHold ∧ saved.1 ∈ h.spellCooldowns ∧ !(h.nodeAt saved.1).entry.onHold then
    h.setEntry saved.1 saved.2
  else h

def restoreCooldownStateAfterDuel (h : SpellHistory) : SpellHistory :=
  if view.isPlayer then
    let saved := h.withProfessionCooldowns view
    saved.entries.foldl restoreEntry { h with spellCooldownsBeforeDuel := saved }
  else h

/-- What `LoadFromDB` does with a row whose spell exists. -/
def loadCooldown (spellId itemId : Nat) (cooldownEnd : Int) (categoryId : Nat) (categoryEnd : Int) :
    SpellHistory :=
  (h.setEntry spellId { spellId, cooldownEnd, itemId, categoryId, categoryEnd }).setCategory
    categoryId (h.nodeAt spellId).address

/-- The first loop of `Update`. -/
def updateCategory (now : Int) (h : SpellHistory) (category : Σ _ : Nat, Nat) :
    Except Fault SpellHistory := do
  let entry ← h.deref category.2
  if entry.categoryEnd < now then
    .ok { h with categoryCooldowns := h.categoryCooldowns.erase category.1 }
  else .ok h

/-- The second loop of `Update`. -/
def updateCooldown (now : Int) (h : SpellHistory) (spellId : Nat) : SpellHistory :=
  if (h.nodeAt spellId).entry.cooldownEnd < now then h.eraseCooldown spellId else h

/-- The third loop of `Update`. -/
def updateCharges (now : Int) (h : SpellHistory) : SpellHistory :=
  { h with
    categoryCharges := fun category =>
      (h.categoryCharges category).dropWhile fun entry => entry.rechargeEnd ≤ now }

def update (now : Int) (h : SpellHistory) : Except Fault SpellHistory := do
  let h ← h.categoryCooldowns.entries.foldlM (updateCategory now) h
  let h := h.spellCooldowns.keys.foldl (updateCooldown now) h
  .ok (h.updateCharges now)

def consumeCharge (now : Int) (h : SpellHistory) (chargeCategoryId : Nat) : SpellHistory × Bool :=
  let chargeRecovery := view.getChargeRecoveryTime chargeCategoryId
  if !view.hasSpellCategory chargeCategoryId then (h, false)
  else if chargeRecovery > 0 ∧ view.getMaxCharges chargeCategoryId > 0 then
    let charges := h.categoryCharges chargeCategoryId
    let recoveryStart := match charges.getLast? with
      | none => now
      | some last => last.rechargeEnd
    let charges := charges ++ [ChargeEntry.startingAt recoveryStart chargeRecovery]
    ({ h with categoryCharges := Function.update h.categoryCharges chargeCategoryId charges }, true)
  else (h, false)

def hasCharge (h : SpellHistory) (chargeCategoryId : Nat) : Bool :=
  if !view.hasSpellCategory chargeCategoryId then true
  else
    let maxCharges := view.getMaxCharges chargeCategoryId
    if maxCharges ≤ 0 then true else ((h.categoryCharges chargeCategoryId).length : Int) < maxCharges

end SpellHistory

end LegionServer.Source.Spells
