import Mathlib.Data.NNRat.Defs
import LegionServer.Library.Transition
import LegionServer.Source.Combat.ThreatManager

/-!
# Combat and threat together

The functions of `CombatManager` and `ThreatManager` that call each other
(`CombatManager.cpp:60-86`, `126-144`, `266-406`, `ThreatManager.cpp:353-497`),
and the requests that the rest of the server makes. A unit answers for its two
managers.
-/
namespace LegionServer.Source.Combat
open Library

universe u

structure World (U H : Type u) where
  combat : CombatWorld U
  threat : ThreatWorld U H

namespace World

variable {U H : Type u} [DecidableEq U] (q : PriorityQueue RefId SortKey H)
  (env : World U H → View U)

/-- `CombatReference::EndCombat`. -/
def endCombat (w : World U H) (id : RefId) : Except Fault (World U H) := do
  let ref := w.combat.object id
  let threat ← w.threat.clearThreat q (env w) ref.first ref.second
  let w := { w with threat }
  let threat ← w.threat.clearThreat q (env w) ref.second ref.first
  .ok { combat := w.combat.endCombat id, threat }

variable (w : World U H)

/-- `it = refs.erase(it); ref->EndCombat();`. -/
def eraseAndEnd (isPvP : Bool) (a : U) (entry : Σ _ : U, RefId) : Except Fault (World U H) :=
  { w with combat := w.combat.purgeReference a entry.1 isPvP }.endCombat q env entry.2

/-- One round of `CombatManager::Update`, with `PvPCombatReference::Update`. -/
def updateRef (a : U) (tdiff : Nat) (w : World U H) (entry : Σ _ : U, RefId) :
    Except Fault (World U H) :=
  let ref := w.combat.object entry.2
  if ref.first = a then
    if ref.combatTimer ≤ tdiff then w.eraseAndEnd q env true a entry
    else .ok
      { w with
        combat := w.combat.setObject entry.2 { ref with combatTimer := ref.combatTimer - tdiff } }
  else .ok w

/-- `CombatManager::Update`. -/
def update (a : U) (tdiff : Nat) : Except Fault (World U H) :=
  ((env w).entries (w.combat.refs true a)).foldlM (updateRef q env a tdiff) w

/-- The loop of `EndCombatBeyondRange` and `RevalidateCombat` over one map. -/
def endWhere (ends : World U H → CombatReference U → Bool) (w : World U H) (isPvP : Bool) (a : U) :
    Except Fault (World U H) :=
  ((env w).entries (w.combat.refs isPvP a)).foldlM (fun w entry =>
      if ends w (w.combat.object entry.2) then w.eraseAndEnd q env isPvP a entry else .ok w) w

def endCombatBeyondRange (a : U) (range : ℚ) (includingPvP : Bool) :
    Except Fault (World U H) := do
  let beyond := fun (w : World U H) (ref : CombatReference U) =>
    !(env w).isWithinDistInMap ref.first ref.second range
  let w ← w.endWhere q env beyond false a
  if !includingPvP then .ok w else w.endWhere q env beyond true a

def revalidateCombat (a : U) : Except Fault (World U H) := do
  let invalid := fun (w : World U H) (ref : CombatReference U) =>
    !(env w).canBeginCombat a (ref.getOther a)
  let w ← w.endWhere q env invalid false a
  w.endWhere q env invalid true a

/-- `while (!refs.empty()) refs.begin()->second->EndCombat();`. -/
def endAll (isPvP : Bool) (a : U) : Except Fault (World U H) :=
  whileSome .unfinished (fun w : World U H => ((env w).entries (w.combat.refs isPvP a)).head?)
    (fun w entry => w.endCombat q env entry.2) (w.combat.refs isPvP a).entries.length w

def endAllPvECombat (a : U) : Except Fault (World U H) := do
  let threat ← w.threat.removeMeFromThreatLists q (env w) a
  let w := { w with threat }
  let threat ← w.threat.clearAllThreat q (env w) a
  { w with threat }.endAll q env false a

def endAllPvPCombat (a : U) : Except Fault (World U H) := w.endAll q env true a

def endAllCombat (a : U) : Except Fault (World U H) := do
  let w ← w.endAllPvECombat q env a
  w.endAllPvPCombat q env a

def setInCombatWith (w : World U H) (a who : U) (addSecondUnitSuppressed : Bool) :
    Except Fault (World U H × Bool) := do
  let (combat, inCombat) ← w.combat.setInCombatWith (env w) a who addSecondUnitSuppressed
  .ok ({ w with combat }, inCombat)

def joinRedirect (a : U) (w : World U H) (redirect : U × Nat) : Except Fault (World U H) :=
  if !w.combat.isInCombatWith a redirect.1 && (env w).getUnit a redirect.1 then
    (w.setInCombatWith env a redirect.1 false).map Prod.fst
  else .ok w

/-- `AddThreat` for an owner without a threat list: only combat is set. -/
def addThreatWithoutList (a target : U) : Except Fault (World U H) := do
  let (w, inCombat) ← w.setInCombatWith env a target false
  if inCombat then ((env w).redirectInfo target).foldlM (joinRedirect env a) w else .ok w

/-- The last part of `AddThreat`: combat first, then the reference. -/
def applyThreat (a target : U) (amount : ℚ) : Except Fault (World U H) := do
  let (w, inCombat) ← w.setInCombatWith env a target false
  if !inCombat then .ok w
  else
    match (w.threat.entries a).lookup target with
    | some id =>
      let ref := w.threat.ref id
      let threat := if ref.isSuppressed && !ThreatWorld.shouldBeSuppressed (env w) ref then
        w.threat.setOnline q id .online true else w.threat
      .ok { w with threat := threat.addOnlineThreat q id amount }
    | none =>
      let id := w.threat.nextRef
      let threat := w.threat.create { owner := a, victim := target }
      let threat ← threat.putThreatListRef q a target id
      let threat ← threat.putThreatenedByMeRef target a id
      let threat := (threat.updateOffline q (env w) id).addOnlineThreat q id amount
      let threat ← threat.updateMissingVictim q (env w) a
      .ok { w with threat }

variable (add : World U H → U → ℚ → Except Fault (World U H))

/-- The nested calls of `AddThreat` for redirection targets, and what is left. -/
def redirectThreat (w : World U H) (a target : U) (origAmount : ℚ) : Except Fault (World U H × ℚ) :=
  ((env w).redirectInfo target).foldlM (fun (state : World U H × ℚ) redirect => do
      let (w, amount) := state
      if ((w.threat.entries a).lookup redirect.1).isSome || (env w).getUnit a redirect.1 then do
        let amountRedirected := origAmount * redirect.2 / 100
        let w ← add w redirect.1 amountRedirected
        .ok (w, amount - amountRedirected)
      else .ok (w, amount)) (w, origAmount)

/-- `AddThreat` from the threat modifiers on. -/
def addModifiedThreat (w : World U H) (a target : U) (amount : ℚ) (spell : Option SpellInfo)
    (ignoreModifiers ignoreRedirects : Bool) :
    Except Fault (World U H) := do
  let amount := if ignoreModifiers then amount else (env w).calculateModifiedThreat amount target spell
  let (w, amount) ← if !ignoreRedirects && amount > 0 then
      redirectThreat env add w a target amount else .ok (w, amount)
  applyThreat q env w a target amount

/-- "While riding a vehicle, all threat goes to the vehicle, not the pilot". -/
def addVehicleThreat (w : World U H) (target : U) (amount : ℚ) : Except Fault (World U H × ℚ) :=
  match (env w).getVehicleBase target with
  | none => .ok (w, amount)
  | some vehicle => (add w vehicle amount).map fun w => (w, 0)

/-- "If victim is personal spawn, redirect all aggro to summoner". -/
def addOwnerThreat (w : World U H) (a target : U) (amount : ℚ) : Except Fault (World U H × ℚ) :=
  let owner := (env w).getPrivateObjectOwner target
  if (env w).isPrivateObject target &&
      (!(env w).isPrivateObject a || !(env w).checkPrivateObjectOwnerVisibility a target) &&
      (env w).getUnit a owner then
    (add w owner amount).map fun w => (w, 0)
  else .ok (w, amount)

/-- `ThreatManager::AddThreat`. It calls itself for vehicles, owners of personal
spawns and redirection targets, as deep as there is fuel. -/
def addThreat (a : U) (spell : Option SpellInfo) : Nat → Bool → Bool → World U H → U → ℚ →
    Except Fault (World U H)
  | 0, _, _, _, _, _ => .error .unfinished
  | fuel + 1, ignoreModifiers, ignoreRedirects, w, target, amount =>
    if spell.any fun spell => spell.noThreat ||
        !(env w).isEngaged a && spell.noInitialThreat then .ok w
    else do
      let isAccessory := ((env w).getVehicleBase target).isSome && (env w).isAccessory target
      let (w, amount) ← addVehicleThreat env
        (addThreat a spell fuel ignoreModifiers ignoreRedirects) w target amount
      if isAccessory then .ok w
      else do
        let (w, amount) ← addOwnerThreat env
          (addThreat a spell fuel ignoreModifiers ignoreRedirects) w a target amount
        if !(w.threat.manager a).ownerCanHaveThreatList then addThreatWithoutList env w a target
        else
          addModifiedThreat q env (addThreat a spell fuel true true) w a target amount spell
            ignoreModifiers ignoreRedirects

def matchUnitThreatToHighestThreat (fuel : Nat) (w : World U H) (a target : U) :
    Except Fault (World U H) :=
  match q.ordered w.threat.sortKeys (w.threat.heap a) with
  | [] => .ok w
  | highest :: rest =>
    if !(w.threat.ref highest).isAvailable then .ok w
    else
      let highestThreat := match rest with
        | [] => (w.threat.ref highest).getThreat
        | next :: _ =>
          if (w.threat.ref highest).isTaunting && (w.threat.ref next).isAvailable &&
              (w.threat.ref next).getThreat > (w.threat.ref highest).getThreat then
            (w.threat.ref next).getThreat
          else (w.threat.ref highest).getThreat
      addThreat q env a none fuel true true w target (highestThreat - w.threat.getThreat a target)

end World

/-- What the rest of the server asks of the two managers of a unit, or of a
reference retrieved from one of them. -/
inductive CombatRequest (U : Type*) where
  | setInCombatWith (a who : U) (addSecondUnitSuppressed : Bool)
  | endCombat (a b : U) (isPvP : Bool)
  | refresh (a b : U) (isPvP : Bool)
  | suppressFor (a b : U) (isPvP : Bool)
  | suppressPvPCombat (a : U)
  | updateCombat (a : U) (tdiff : Nat)
  | endCombatBeyondRange (a : U) (range : ℚ) (includingPvP : Bool)
  | revalidateCombat (a : U)
  | endAllPvECombat (a : U)
  | endAllPvPCombat (a : U)
  | addThreat (a target : U) (amount : ℚ) (spell : Option SpellInfo)
      (ignoreModifiers ignoreRedirects : Bool)
  | scaleThreat (a target : U) (factor : ℚ)
  | matchUnitThreatToHighestThreat (a target : U)
  | tauntUpdate (a : U)
  | evaluateSuppressed (a : U) (canExpire : Bool)
  | resetAllThreat (a : U)
  | clearThreat (a target : U)
  | clearAllThreat (a : U)
  | removeMeFromThreatLists (a : U)
  | fixateTarget (a : U) (target : Option U)
  | updateThreat (a : U) (tdiff : Nat)
  | updateVictim (a : U)
  | updateMyTempModifiers (a : U)
  | addRefThreat (a target : U) (amount : ℚ)
  /-- Callers of `ThreatReference::ScaleThreat` pass no negative factor. -/
  | scaleRefThreat (a target : U) (factor : ℚ≥0)
  | updateOffline (a target : U)

namespace World

variable {U H : Type u} [DecidableEq U] (q : PriorityQueue RefId SortKey H)
  (env : World U H → View U)

/-- A call of a member of the combat reference that `a` has under `b`, if there is one. -/
def onReference (w : World U H) (a b : U) (isPvP : Bool)
    (call : RefId → Except Fault (World U H)) : Except Fault (World U H) :=
  match (w.combat.refs isPvP a).lookup b with
  | none => .ok w
  | some id => call id

/-- A call of a member of the threat reference that `a` has under `target`. -/
def onThreat (w : World U H) (a target : U) (call : RefId → ThreatWorld U H) : World U H :=
  match (w.threat.entries a).lookup target with
  | none => w
  | some id => { w with threat := call id }

def perform (fuel : Nat) (w : World U H) : CombatRequest U → Except Fault (World U H)
  | .setInCombatWith a who suppressed => (w.setInCombatWith env a who suppressed).map Prod.fst
  | .endCombat a b isPvP => w.onReference a b isPvP fun id => w.endCombat q env id
  | .refresh a b isPvP => w.onReference a b isPvP fun id =>
      .ok { w with combat := w.combat.refresh id }
  | .suppressFor a b isPvP => w.onReference a b isPvP fun id =>
      .ok { w with combat := w.combat.suppressFor id a }
  | .suppressPvPCombat a => .ok { w with combat := w.combat.suppressPvPCombat (env w) a }
  | .updateCombat a tdiff => w.update q env a tdiff
  | .endCombatBeyondRange a range includingPvP => w.endCombatBeyondRange q env a range includingPvP
  | .revalidateCombat a => w.revalidateCombat q env a
  | .endAllPvECombat a => w.endAllPvECombat q env a
  | .endAllPvPCombat a => w.endAllPvPCombat q env a
  | .addThreat a target amount spell ignoreModifiers ignoreRedirects =>
    addThreat q env a spell fuel ignoreModifiers ignoreRedirects w target amount
  | .scaleThreat a target factor =>
    .ok { w with threat := w.threat.scaleThreat q a target factor }
  | .matchUnitThreatToHighestThreat a target =>
    matchUnitThreatToHighestThreat q env fuel w a target
  | .tauntUpdate a => .ok { w with threat := w.threat.tauntUpdate q (env w) a }
  | .evaluateSuppressed a canExpire =>
    .ok { w with threat := w.threat.evaluateSuppressed q (env w) a canExpire }
  | .resetAllThreat a => .ok { w with threat := w.threat.resetAllThreat q (env w) a }
  | .clearThreat a target =>
    (w.threat.clearThreat q (env w) a target).map fun threat => { w with threat }
  | .clearAllThreat a =>
    (w.threat.clearAllThreat q (env w) a).map fun threat => { w with threat }
  | .removeMeFromThreatLists a =>
    (w.threat.removeMeFromThreatLists q (env w) a).map fun threat => { w with threat }
  | .fixateTarget a target => .ok { w with threat := w.threat.fixateTarget a target }
  | .updateThreat a tdiff =>
    (w.threat.update q (env w) a tdiff).map fun threat => { w with threat }
  | .updateVictim a => (w.threat.updateVictim q (env w) a).map fun threat => { w with threat }
  | .updateMyTempModifiers a =>
    .ok { w with threat := w.threat.updateMyTempModifiers q (env w) a }
  | .addRefThreat a target amount => .ok (w.onThreat a target fun id =>
      w.threat.addRefThreat q id amount)
  | .scaleRefThreat a target factor => .ok (w.onThreat a target fun id =>
      w.threat.scaleRefThreat q id factor)
  | .updateOffline a target => .ok (w.onThreat a target fun id =>
      w.threat.updateOffline q (env w) id)

def Initial (w : World U H) : Prop :=
  (∀ a, w.combat.manager a = {} ∧ w.combat.inCombat a = false) ∧ (∀ id, w.combat.live id = false) ∧
    (∀ a, ∃ canHaveThreatList,
      w.threat.manager a = { ownerCanHaveThreatList := canHaveThreatList, sortedThreatList := q.empty }) ∧
    (∀ id, w.threat.live id = false) ∧ w.threat.notifications = []

end World

/-- A request, the answers of the server while it is served, and how deep
`AddThreat` may call itself. -/
structure CombatCall (U H : Type u) where
  env : World U H → View U
  fuel : Nat
  request : CombatRequest U

def combatSystem {U H : Type u} [DecidableEq U] (q : PriorityQueue RefId SortKey H) :
    System (World U H) (CombatCall U H) where
  init := World.Initial q
  step call w w' := w.perform q call.env call.fuel call.request = .ok w'

end LegionServer.Source.Combat
