import Mathlib.Data.List.AList
import Mathlib.Data.Rat.Defs
import LegionServer.Library.Outcome

/-!
# What the combat and threat managers ask the rest of the server

The answers are given anew for every call, and may depend on the state in which
the managers ask. Callbacks (`UnitAI`, `AtEnterCombat`, `AtEngage` and the like)
do nothing, and packets to clients are left out.
-/
namespace LegionServer.Source.Combat
open List AList

abbrev RefId := Nat

/-- An `unordered_map` from guids to references; a unit stands for its guid. -/
abbrev RefMap (U : Type*) := AList fun _ : U => RefId

/-- `amount` modifiers need nothing of a spell but these attributes and its id. -/
structure SpellInfo where
  id : Nat
  noThreat : Bool := false
  noInitialThreat : Bool := false
  deriving DecidableEq

theorem entries_erase {U : Type*} [DecidableEq U] {refs : RefMap U} {a : U} {id : RefId}
    (h : refs.lookup a = some id) : refs.entries.Perm (⟨a, id⟩ :: (refs.erase a).entries) := by
  have hmem := mem_lookup_iff.mp h
  obtain ⟨id', l₁, l₂, hnot, hl, herase⟩ :=
    exists_of_kerase (mem_keys_of_mem hmem)
  have hid : id' = id := by
    have hmem' : ⟨a, id'⟩ ∈ refs.entries := by simp [hl]
    have hlookup := mem_lookup_iff.mpr hmem'
    rw [h] at hlookup
    exact (Option.some.inj hlookup).symm
  subst hid
  change refs.entries.Perm (⟨a, id'⟩ :: refs.entries.kerase a)
  rw [herase, hl]
  exact perm_middle

/-- A map that differs only in lacking an entry is shorter. -/
theorem length_lt_of_lookup {U : Type*} [DecidableEq U] {refs refs' : RefMap U} {a : U} {id : RefId}
    (h : refs.lookup a = some id)
    (h' : ∀ x, refs'.lookup x = if x = a then none else refs.lookup x) :
    refs'.entries.length < refs.entries.length := by
  have hperm : refs'.entries.Perm (refs.erase a).entries := by
    refine (perm_ext_iff_of_nodup refs'.nodupKeys.nodup (refs.erase a).nodupKeys.nodup).mpr ?_
    intro entry
    rw [← mem_lookup_iff, ← mem_lookup_iff, h']
    by_cases hentry : entry.1 = a
    · rw [if_pos hentry, hentry, lookup_erase]
    · rw [if_neg hentry, lookup_erase_ne hentry]
  rw [hperm.length_eq, (entries_erase h).length_eq]
  exact Nat.lt_succ_self _

structure View (U : Type*) where
  /-- The order in which an `unordered_map` with these entries is traversed. -/
  order : List (Σ _ : U, RefId) → List (Σ _ : U, RefId)
  order_perm : ∀ l, (order l).Perm l
  isInWorld : U → Bool
  isAlive : U → Bool
  inSameMap : U → U → Bool
  inSamePhase : U → U → Bool
  isEvading : U → Bool
  isInFlight : U → Bool
  isCombatDisallowed : U → Bool
  isFriendlyTo : U → U → Bool
  /-- The charmer or owner player, or the player itself, is a game master. -/
  isOfGameMaster : U → Bool
  isControlledByPlayer : U → Bool
  isWithinDistInMap : U → U → ℚ → Bool
  canSeeOrDetect : U → U → Bool
  isTargetAcceptable : U → U → Bool
  canCreatureAttack : U → U → Bool
  isTrigger : U → Bool
  isPlayerControlled : U → Bool
  isImmuneToPC : U → Bool
  isImmuneToNPC : U → Bool
  isImmunedToMeleeDamageOf : U → U → Bool
  isConfused : U → Bool
  hasBreakableStun : U → Bool
  /-- `HasAuraTypeWithCaster(SPELL_AURA_MOD_DETAUNT, caster)`. -/
  isDetauntedBy : U → U → Bool
  isWithinMeleeRange : U → U → Bool
  /-- The casters of the `SPELL_AURA_MOD_TAUNT` effects, in order. -/
  tauntCasters : U → List U
  /-- The amounts of the `SPELL_AURA_MOD_TOTAL_THREAT` effects. -/
  totalThreatAuras : U → List Int
  isEngaged : U → Bool
  getVehicleBase : U → Option U
  isAccessory : U → Bool
  isPrivateObject : U → Bool
  checkPrivateObjectOwnerVisibility : U → U → Bool
  getPrivateObjectOwner : U → U
  /-- `ObjectAccessor::GetUnit` finds the second unit from the first. -/
  getUnit : U → U → Bool
  redirectInfo : U → List (U × Nat)
  calculateModifiedThreat : ℚ → U → Option SpellInfo → ℚ

namespace View

variable {U : Type*} (view : View U)

def flagsAllowFighting (a b : U) : Bool :=
  if view.isTrigger a then false
  else if view.isPlayerControlled a then !view.isImmuneToPC b
  else !view.isImmuneToNPC b

def canBeginCombat [DecidableEq U] (a b : U) : Bool :=
  a ≠ b && (view.isInWorld a && view.isInWorld b) && (view.isAlive a && view.isAlive b) &&
    view.inSameMap a b &&
    view.inSamePhase a b &&
    !(view.isEvading a || view.isEvading b) &&
    !(view.isInFlight a || view.isInFlight b) &&
    !(view.isCombatDisallowed a || view.isCombatDisallowed b) &&
    !(view.isFriendlyTo a b || view.isFriendlyTo b a) &&
    !(view.isOfGameMaster a || view.isOfGameMaster b)

theorem canBeginCombat_self [DecidableEq U] (a : U) : view.canBeginCombat a a = false := by
  simp [canBeginCombat]

/-- The map as its iterators show it. -/
def entries (refs : RefMap U) : List (Σ _ : U, RefId) := view.order refs.entries

theorem mem_entries [DecidableEq U] {refs : RefMap U} {a : U} {id : RefId} :
    ⟨a, id⟩ ∈ view.entries refs ↔ refs.lookup a = some id :=
  (view.order_perm refs.entries).mem_iff.trans AList.mem_lookup_iff.symm

theorem entries_keys (refs : RefMap U) : ((view.entries refs).map Sigma.fst).Nodup :=
  ((view.order_perm refs.entries).map Sigma.fst).nodup_iff.mpr refs.keys_nodup

theorem length_entries (refs : RefMap U) : (view.entries refs).length = refs.entries.length :=
  (view.order_perm refs.entries).length_eq

end View

/-!
# Combat references and the combat state of units

`CombatReference`, `PvPCombatReference` and the functions of `CombatManager`
that leave threat alone (`CombatManager.h:51-165`, `CombatManager.cpp:88-149`,
`151-235`, `324-331`, `382-470`). The managers of all units share the reference
objects, which live at addresses that are never used again.
-/
open Library

/-- Failed assertions, and recursions and loops that do not come to an end. -/
inductive Fault where
  | duplicateCombatState
  | duplicateThreatReference
  | duplicateThreatenedByMe
  | victimNotFound
  | unfinished
  deriving DecidableEq, Repr

def PVP_COMBAT_TIMEOUT : Nat := 5 * 1000

/-- `combatTimer` is read in PvP references only. -/
structure CombatReference (U : Type*) where
  first : U
  second : U
  isPvP : Bool
  suppressFirst : Bool := false
  suppressSecond : Bool := false
  combatTimer : Nat := PVP_COMBAT_TIMEOUT

namespace CombatReference

variable {U : Type*} [DecidableEq U]

def getOther (ref : CombatReference U) (me : U) : U :=
  if ref.first = me then ref.second else ref.first

def isSuppressedFor (ref : CombatReference U) (who : U) : Bool :=
  if who = ref.first then ref.suppressFirst else ref.suppressSecond

def suppress (ref : CombatReference U) (who : U) : CombatReference U :=
  if who = ref.first then { ref with suppressFirst := true }
  else { ref with suppressSecond := true }

end CombatReference

structure CombatManager (U : Type*) where
  pveRefs : RefMap U := ∅
  pvpRefs : RefMap U := ∅

namespace CombatManager

variable {U : Type*}

def refs (manager : CombatManager U) : Bool → RefMap U
  | false => manager.pveRefs
  | true => manager.pvpRefs

def setRefs (manager : CombatManager U) (refs : RefMap U) : Bool → CombatManager U
  | false => { manager with pveRefs := refs }
  | true => { manager with pvpRefs := refs }

end CombatManager

/-- The combat managers of all units, the reference objects and who has
`UNIT_FLAG_IN_COMBAT`. -/
structure CombatWorld (U : Type*) where
  object : RefId → CombatReference U
  live : RefId → Bool
  nextRef : RefId
  manager : U → CombatManager U
  inCombat : U → Bool

namespace CombatWorld

variable {U : Type*} [DecidableEq U]

def refs (w : CombatWorld U) (isPvP : Bool) (a : U) : RefMap U := (w.manager a).refs isPvP

def setRefs (w : CombatWorld U) (isPvP : Bool) (a : U) (refs : RefMap U) : CombatWorld U :=
  { w with manager := Function.update w.manager a ((w.manager a).setRefs refs isPvP) }

def setObject (w : CombatWorld U) (id : RefId) (ref : CombatReference U) : CombatWorld U :=
  { w with object := Function.update w.object id ref }

/-- `new`, at an address of its own. -/
def create (w : CombatWorld U) (ref : CombatReference U) : CombatWorld U :=
  { w with
    object := Function.update w.object w.nextRef ref
    live := Function.update w.live w.nextRef true
    nextRef := w.nextRef + 1 }

def delete (w : CombatWorld U) (id : RefId) : CombatWorld U :=
  { w with live := Function.update w.live id false }

/-- `HasPvECombat`, `HasPvPCombat`. -/
def hasCombatOf (w : CombatWorld U) (isPvP : Bool) (a : U) : Bool :=
  (w.refs isPvP a).entries.any fun entry => !(w.object entry.2).isSuppressedFor a

def hasCombat (w : CombatWorld U) (a : U) : Bool := w.hasCombatOf false a || w.hasCombatOf true a

def isInCombatWith (w : CombatWorld U) (a who : U) : Bool :=
  ((w.refs false a).lookup who).isSome || ((w.refs true a).lookup who).isSome

/-- `UpdateOwnerCombatState`; its result is for the AI only. -/
def updateOwnerCombatState (w : CombatWorld U) (a : U) : CombatWorld U :=
  if w.hasCombat a = w.inCombat a then w
  else { w with inCombat := Function.update w.inCombat a (w.hasCombat a) }

def putReference (w : CombatWorld U) (a guid : U) (id : RefId) : Except Fault (CombatWorld U) :=
  let isPvP := (w.object id).isPvP
  if ((w.refs isPvP a).lookup guid).isSome then .error .duplicateCombatState
  else .ok (w.setRefs isPvP a ((w.refs isPvP a).insert guid id))

def purgeReference (w : CombatWorld U) (a guid : U) (isPvP : Bool) : CombatWorld U :=
  w.setRefs isPvP a ((w.refs isPvP a).erase guid)

/-- `CombatReference::EndCombat` without the threat. -/
def endCombat (w : CombatWorld U) (id : RefId) : CombatWorld U :=
  let ref := w.object id
  let w := w.purgeReference ref.first ref.second ref.isPvP
  let w := w.purgeReference ref.second ref.first ref.isPvP
  let w := w.updateOwnerCombatState ref.first
  let w := w.updateOwnerCombatState ref.second
  w.delete id

/-- One half of `CombatReference::Refresh`. -/
def refreshFirst (w : CombatWorld U) (id : RefId) : CombatWorld U :=
  let ref := w.object id
  if ref.suppressFirst then
    (w.setObject id { ref with suppressFirst := false }).updateOwnerCombatState ref.first
  else w

def refreshSecond (w : CombatWorld U) (id : RefId) : CombatWorld U :=
  let ref := w.object id
  if ref.suppressSecond then
    (w.setObject id { ref with suppressSecond := false }).updateOwnerCombatState ref.second
  else w

/-- `CombatReference::Refresh`. -/
def refresh (w : CombatWorld U) (id : RefId) : CombatWorld U :=
  (w.refreshFirst id).refreshSecond id

/-- `CombatReference::SuppressFor`. -/
def suppressFor (w : CombatWorld U) (id : RefId) (who : U) : CombatWorld U :=
  (w.setObject id ((w.object id).suppress who)).updateOwnerCombatState who

/-- `PvPCombatReference::RefreshTimer`. -/
def refreshTimer (w : CombatWorld U) (id : RefId) : CombatWorld U :=
  w.setObject id { w.object id with combatTimer := PVP_COMBAT_TIMEOUT }

/-- `CombatManager::SetInCombatWith`. -/
def setInCombatWith (view : View U) (w : CombatWorld U) (a who : U)
    (addSecondUnitSuppressed : Bool) : Except Fault (CombatWorld U × Bool) :=
  match (w.refs true a).lookup who with
  | some existingPvpRef => .ok ((w.refreshTimer existingPvpRef).refresh existingPvpRef, true)
  | none =>
    match (w.refs false a).lookup who with
    | some existingPveRef => .ok (w.refresh existingPveRef, true)
    | none =>
      if !view.canBeginCombat a who then .ok (w, false)
      else do
        let ref : CombatReference U :=
          { first := a, second := who
            isPvP := view.isControlledByPlayer a && view.isControlledByPlayer who }
        let id := w.nextRef
        let w := w.create (if addSecondUnitSuppressed then ref.suppress who else ref)
        let w ← w.putReference a who id
        let w ← w.putReference who a id
        let w := w.updateOwnerCombatState a
        let w := w.updateOwnerCombatState who
        .ok (w, w.isInCombatWith a who)

/-- `CombatManager::SuppressPvPCombat`. -/
def suppressPvPCombat (view : View U) (w : CombatWorld U) (a : U) : CombatWorld U :=
  ((view.entries (w.refs true a)).foldl
    (fun w entry => w.setObject entry.2 ((w.object entry.2).suppress a)) w).updateOwnerCombatState a

end CombatWorld

/-!
# Combat states are symmetric

Most operations change neither the maps nor the parties of a reference (`SameLinks`); they can
only break the flag of a unit whose suppression they change, and they update that one.
-/

variable {U : Type*}

def CombatReference.Links (ref : CombatReference U) (a b : U) : Prop :=
  (ref.first = a ∧ ref.second = b) ∨ (ref.first = b ∧ ref.second = a)

theorem CombatReference.Links.symm {ref : CombatReference U} {a b : U} (h : ref.Links a b) :
    ref.Links b a := Or.symm h

structure SameParties (ref ref' : CombatReference U) : Prop where
  first : ref'.first = ref.first
  second : ref'.second = ref.second
  isPvP : ref'.isPvP = ref.isPvP

theorem SameParties.refl (ref : CombatReference U) : SameParties ref ref := ⟨rfl, rfl, rfl⟩

theorem SameParties.links {ref ref' : CombatReference U} (h : SameParties ref ref') {a b : U} :
    ref'.Links a b ↔ ref.Links a b := by
  simp [CombatReference.Links, h.first, h.second]

namespace CombatManager

theorem refs_setRefs (manager : CombatManager U) (m : RefMap U) (isPvP isPvP' : Bool) :
    (manager.setRefs m isPvP).refs isPvP' = if isPvP' = isPvP then m else manager.refs isPvP' := by
  cases isPvP <;> cases isPvP' <;> rfl

theorem setRefs_setRefs (manager : CombatManager U) (m m' : RefMap U) (isPvP : Bool) :
    (manager.setRefs m isPvP).setRefs m' isPvP = manager.setRefs m' isPvP := by
  cases isPvP <;> rfl

end CombatManager

namespace CombatWorld

variable {w w' w'' : CombatWorld U}

structure SameLinks (w w' : CombatWorld U) : Prop where
  manager : w'.manager = w.manager
  live : w'.live = w.live
  nextRef : w'.nextRef = w.nextRef
  object : ∀ id, SameParties (w.object id) (w'.object id)

theorem SameLinks.refl (w : CombatWorld U) : SameLinks w w := ⟨rfl, rfl, rfl, fun _ => .refl _⟩

theorem SameLinks.trans (h : SameLinks w w') (h' : SameLinks w' w'') : SameLinks w w'' where
  manager := h'.manager.trans h.manager
  live := h'.live.trans h.live
  nextRef := h'.nextRef.trans h.nextRef
  object id := ⟨(h'.object id).first.trans (h.object id).first,
    (h'.object id).second.trans (h.object id).second, (h'.object id).isPvP.trans (h.object id).isPvP⟩

theorem SameLinks.refs (h : SameLinks w w') (isPvP : Bool) (a : U) :
    w'.refs isPvP a = w.refs isPvP a := by
  simp [CombatWorld.refs, h.manager]

theorem sameLinks_setObject {id : RefId} {ref : CombatReference U} (h : SameParties (w.object id) ref) :
    SameLinks w (w.setObject id ref) where
  manager := rfl
  live := rfl
  nextRef := rfl
  object id' := by
    by_cases heq : id' = id
    · subst heq
      simpa [setObject] using h
    · simpa [setObject, heq] using SameParties.refl (w.object id')

theorem sameLinks_setTimer (w : CombatWorld U) (id : RefId) (combatTimer : Nat) :
    SameLinks w (w.setObject id { w.object id with combatTimer }) :=
  sameLinks_setObject ⟨rfl, rfl, rfl⟩

end CombatWorld

variable [DecidableEq U]

theorem CombatReference.suppress_parties (ref : CombatReference U) (who : U) :
    SameParties ref (ref.suppress who) := by
  unfold suppress
  split <;> exact ⟨rfl, rfl, rfl⟩

theorem CombatReference.suppress_other {ref : CombatReference U} {a b c : U} (h : ref.Links a b)
    (hne : c ≠ a) (hc : c = ref.first ∨ c = ref.second) :
    (ref.suppress a).isSuppressedFor c = ref.isSuppressedFor c := by
  unfold suppress
  rcases h with ⟨rfl, rfl⟩ | ⟨rfl, rfl⟩
  · simp [isSuppressedFor, hne]
  · have hfirst : c = ref.first := hc.resolve_right hne
    subst hfirst
    simp [isSuppressedFor, Ne.symm hne]

namespace CombatWorld

variable {w w' : CombatWorld U} {a b c d : U} {id : RefId} {isPvP isPvP' : Bool}

theorem SameLinks.isInCombatWith (h : SameLinks w w') (a b : U) :
    w'.isInCombatWith a b = w.isInCombatWith a b := by
  simp [CombatWorld.isInCombatWith, h.refs]

theorem sameLinks_update (w : CombatWorld U) (a : U) : SameLinks w (w.updateOwnerCombatState a) := by
  unfold updateOwnerCombatState
  split
  · exact .refl w
  · exact ⟨rfl, rfl, rfl, fun _ => .refl _⟩

theorem refs_setRefs (w : CombatWorld U) (isPvP isPvP' : Bool) (a c : U) (m : RefMap U) :
    (w.setRefs isPvP a m).refs isPvP' c =
      if c = a ∧ isPvP' = isPvP then m else w.refs isPvP' c := by
  by_cases hc : c = a
  · subst hc
    simp [setRefs, refs, CombatManager.refs_setRefs]
  · simp [setRefs, refs, hc]

theorem refs_purgeReference (w : CombatWorld U) (a b c : U) (isPvP isPvP' : Bool) :
    (w.purgeReference a b isPvP).refs isPvP' c =
      if c = a ∧ isPvP' = isPvP then (w.refs isPvP a).erase b else w.refs isPvP' c :=
  refs_setRefs ..

theorem purgeReference_twice (w : CombatWorld U) (a b : U) (isPvP : Bool) :
    (w.purgeReference a b isPvP).purgeReference a b isPvP = w.purgeReference a b isPvP := by
  have herase : ∀ m : RefMap U, (m.erase b).erase b = m.erase b := by
    intro m
    apply AList.ext
    apply kerase_of_notMem_keys
    change b ∉ (m.entries.kerase b).keys
    rw [keys_kerase]
    exact m.keys_nodup.not_mem_erase
  simp [purgeReference, refs, setRefs, CombatManager.refs_setRefs, CombatManager.setRefs_setRefs,
    herase]

theorem purgeReference_comm (w : CombatWorld U) (hne : a ≠ b) (isPvP : Bool) :
    (w.purgeReference a b isPvP).purgeReference b a isPvP =
      (w.purgeReference b a isPvP).purgeReference a b isPvP := by
  simp [purgeReference, refs, setRefs, hne, Ne.symm hne, Function.update_comm hne]

/-- A unit is in combat by some reference that is not suppressed for it. -/
theorem hasCombat_iff (w : CombatWorld U) (a : U) :
    w.hasCombat a = true ↔ ∃ isPvP b id, (w.refs isPvP a).lookup b = some id ∧
      (w.object id).isSuppressedFor a = false := by
  have hany : ∀ isPvP, w.hasCombatOf isPvP a = true ↔
      ∃ b id, (w.refs isPvP a).lookup b = some id ∧ (w.object id).isSuppressedFor a = false := by
    intro isPvP
    simp only [hasCombatOf, any_eq_true, Bool.not_eq_true']
    constructor
    · rintro ⟨⟨b, id⟩, hmem, hsup⟩
      exact ⟨b, id, mem_lookup_iff.mpr hmem, hsup⟩
    · rintro ⟨b, id, hlookup, hsup⟩
      exact ⟨⟨b, id⟩, mem_lookup_iff.mp hlookup, hsup⟩
  simp [hasCombat, hany, Bool.exists_bool]

theorem hasCombat_congr (hrefs : ∀ isPvP, w'.refs isPvP c = w.refs isPvP c)
    (hobject : ∀ isPvP b id, (w.refs isPvP c).lookup b = some id →
      (w'.object id).isSuppressedFor c = (w.object id).isSuppressedFor c) :
    w'.hasCombat c = w.hasCombat c := by
  rw [Bool.eq_iff_iff, hasCombat_iff, hasCombat_iff]
  simp only [hrefs]
  constructor
  · rintro ⟨isPvP, b, id, hlookup, hsup⟩
    exact ⟨isPvP, b, id, hlookup, (hobject isPvP b id hlookup).symm.trans hsup⟩
  · rintro ⟨isPvP, b, id, hlookup, hsup⟩
    exact ⟨isPvP, b, id, hlookup, (hobject isPvP b id hlookup).trans hsup⟩

def Flagged (w : CombatWorld U) (a : U) : Prop := w.inCombat a = w.hasCombat a

theorem hasCombat_update (w : CombatWorld U) (a c : U) :
    (w.updateOwnerCombatState a).hasCombat c = w.hasCombat c := by
  unfold updateOwnerCombatState
  split <;> rfl

theorem flagged_update (w : CombatWorld U) (a : U) : Flagged (w.updateOwnerCombatState a) a := by
  unfold Flagged
  rw [hasCombat_update]
  unfold updateOwnerCombatState
  split
  · rename_i h
    exact h.symm
  · simp

theorem Flagged.update (h : Flagged w c) (a : U) : Flagged (w.updateOwnerCombatState a) c := by
  by_cases hc : c = a
  · subst hc
    exact flagged_update w c
  unfold Flagged
  unfold updateOwnerCombatState
  split
  · exact h
  · exact (Function.update_of_ne hc _ _).trans h

/-- The maps of all units agree: an entry of `a` under `b` is a live reference
between them, of the kind of the map, and `b` has it under `a`; no two units
share one of each kind. -/
structure Structured (w : CombatWorld U) : Prop where
  live : ∀ {isPvP a b id}, (w.refs isPvP a).lookup b = some id → w.live id = true
  fresh : ∀ {id}, w.live id = true → id < w.nextRef
  kind : ∀ {isPvP a b id}, (w.refs isPvP a).lookup b = some id → (w.object id).isPvP = isPvP
  links : ∀ {isPvP a b id}, (w.refs isPvP a).lookup b = some id → (w.object id).Links a b
  distinct : ∀ {isPvP a b id}, (w.refs isPvP a).lookup b = some id → a ≠ b
  symm : ∀ {isPvP a b id}, (w.refs isPvP a).lookup b = some id → (w.refs isPvP b).lookup a = some id
  single : ∀ {a b id}, (w.refs false a).lookup b = some id → (w.refs true a).lookup b = none

/-- The maps agree and every flag is right. -/
structure CombatOk (w : CombatWorld U) : Prop extends Structured w where
  flagged : ∀ a, Flagged w a

theorem Structured.same (h : Structured w) (hsame : SameLinks w w') : Structured w' where
  live hlookup := by
    rw [hsame.refs] at hlookup
    rw [hsame.live]
    exact h.live hlookup
  fresh hlive := by
    rw [hsame.live] at hlive
    rw [hsame.nextRef]
    exact h.fresh hlive
  kind hlookup := by
    rw [hsame.refs] at hlookup
    exact (hsame.object _).isPvP.trans (h.kind hlookup)
  links hlookup := by
    rw [hsame.refs] at hlookup
    exact (hsame.object _).links.mpr (h.links hlookup)
  distinct hlookup := by
    rw [hsame.refs] at hlookup
    exact h.distinct hlookup
  symm hlookup := by
    rw [hsame.refs] at hlookup ⊢
    exact h.symm hlookup
  single hlookup := by
    rw [hsame.refs] at hlookup ⊢
    exact h.single hlookup

theorem Structured.party (h : Structured w) (hlookup : (w.refs isPvP a).lookup b = some id) :
    a = (w.object id).first ∨ a = (w.object id).second := by
  rcases h.links hlookup with ⟨hfirst, _⟩ | ⟨_, hsecond⟩
  · exact .inl hfirst.symm
  · exact .inr hsecond.symm

variable {ref : CombatReference U}

/-- The flag of a unit survives a change that does not touch its suppression. -/
theorem Structured.flagged_setObject (h : Structured w)
    (hsup : (c = (w.object id).first ∨ c = (w.object id).second) →
      ref.isSuppressedFor c = (w.object id).isSuppressedFor c)
    (hc : Flagged w c) : Flagged (w.setObject id ref) c := by
  have hsame : (w.setObject id ref).hasCombat c = w.hasCombat c := by
    refine hasCombat_congr (fun _ => rfl) fun isPvP b id' hlookup => ?_
    by_cases heq : id' = id
    · subst heq
      simpa [setObject] using hsup (h.party hlookup)
    · simp [setObject, heq]
  exact hc.trans hsame.symm

theorem CombatOk.touch (h : CombatOk w) (who : U) (hparties : SameParties (w.object id) ref)
    (hsup : ∀ c, c ≠ who → (c = (w.object id).first ∨ c = (w.object id).second) →
      ref.isSuppressedFor c = (w.object id).isSuppressedFor c) :
    CombatOk ((w.setObject id ref).updateOwnerCombatState who) where
  toStructured := h.same ((sameLinks_setObject hparties).trans (sameLinks_update _ who))
  flagged c := by
    by_cases hc : c = who
    · subst hc
      exact flagged_update _ c
    · exact (h.flagged_setObject (hsup c hc) (h.flagged c)).update who

section
variable (w : CombatWorld U) (id : RefId)

theorem sameLinks_refreshFirst : SameLinks w (w.refreshFirst id) := by
  unfold refreshFirst
  dsimp only
  split
  · refine SameLinks.trans (sameLinks_setObject ?_) (sameLinks_update _ _)
    exact ⟨rfl, rfl, rfl⟩
  · exact .refl w

theorem sameLinks_refreshSecond : SameLinks w (w.refreshSecond id) := by
  unfold refreshSecond
  dsimp only
  split
  · refine SameLinks.trans (sameLinks_setObject ?_) (sameLinks_update _ _)
    exact ⟨rfl, rfl, rfl⟩
  · exact .refl w

theorem sameLinks_refresh : SameLinks w (w.refresh id) :=
  (sameLinks_refreshFirst w id).trans (sameLinks_refreshSecond _ id)

end

theorem CombatOk.refresh (h : CombatOk w) (id : RefId) : CombatOk (w.refresh id) := by
  have hfirst : CombatOk (w.refreshFirst id) := by
    unfold refreshFirst
    dsimp only
    split
    · refine h.touch _ ⟨rfl, rfl, rfl⟩ fun c hc _ => ?_
      simp [CombatReference.isSuppressedFor, hc]
    · exact h
  unfold CombatWorld.refresh refreshSecond
  dsimp only
  split
  · refine hfirst.touch _ ⟨rfl, rfl, rfl⟩ fun c hc hparty => ?_
    have hcfirst := hparty.resolve_right hc
    simp [CombatReference.isSuppressedFor, hcfirst]
  · exact hfirst

theorem CombatOk.setTimer (h : CombatOk w) (id : RefId) (combatTimer : Nat) :
    CombatOk (w.setObject id { w.object id with combatTimer }) where
  toStructured := h.same (sameLinks_setTimer w id combatTimer)
  flagged c := h.flagged_setObject (fun _ => rfl) (h.flagged c)

theorem sameLinks_suppressFor (w : CombatWorld U) (id : RefId) (who : U) :
    SameLinks w (w.suppressFor id who) :=
  (sameLinks_setObject (CombatReference.suppress_parties _ who)).trans (sameLinks_update _ who)

theorem CombatOk.suppressFor (h : CombatOk w) (hlinks : (w.object id).Links a b) :
    CombatOk (w.suppressFor id a) :=
  h.touch a (CombatReference.suppress_parties _ a) fun _ hc hparty =>
    CombatReference.suppress_other hlinks hc hparty

theorem suppressPvPCombat_loop (h : CombatOk w) (view : View U) (a : U) :
    let w' := (view.entries (w.refs true a)).foldl
      (fun w entry => w.setObject entry.2 ((w.object entry.2).suppress a)) w
    SameLinks w w' ∧ ∀ c, c ≠ a → Flagged w' c := by
  apply foldlRecOn (motive := fun w' => SameLinks w w' ∧ ∀ c, c ≠ a → Flagged w' c)
  · exact ⟨.refl w, fun c _ => h.flagged c⟩
  intro w' hw' entry hentry
  obtain ⟨hsame, hflag⟩ := hw'
  have hlookup := view.mem_entries.mp hentry
  have hstructured := h.same hsame
  have hlinks := (hsame.object entry.2).links.mpr (h.links hlookup)
  refine ⟨hsame.trans (sameLinks_setObject (CombatReference.suppress_parties _ a)),
    fun c hc => hstructured.flagged_setObject (fun hparty => ?_) (hflag c hc)⟩
  exact CombatReference.suppress_other hlinks hc hparty

theorem sameLinks_suppressPvPCombat (h : CombatOk w) (view : View U) (a : U) :
    SameLinks w (w.suppressPvPCombat view a) :=
  (suppressPvPCombat_loop h view a).1.trans (sameLinks_update _ a)

theorem CombatOk.suppressPvPCombat (h : CombatOk w) (view : View U) (a : U) :
    CombatOk (w.suppressPvPCombat view a) where
  toStructured := h.same (sameLinks_suppressPvPCombat h view a)
  flagged c := by
    by_cases hc : c = a
    · subst hc
      exact flagged_update _ c
    · exact ((suppressPvPCombat_loop h view a).2 c hc).update a

end CombatWorld

end LegionServer.Source.Combat
