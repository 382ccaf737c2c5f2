import Mathlib.Data.Prod.Lex
import Mathlib.Algebra.Order.Ring.Rat
import LegionServer.Library.Queues
import LegionServer.Source.Combat.CombatReference

/-!
# Threat references

`ThreatReference`, its sort key and the functions that change it
(`ThreatManager.h:241-307`, `ThreatManager.cpp:38-170`). The heap of a threat
list is a priority queue over the addresses of the references; what it is told
is recorded, with the key it last saw.
-/
namespace LegionServer.Source.Combat
open Library

inductive OnlineState where
  | offline
  | suppressed
  | online
  deriving DecidableEq, Repr

/-- `ONLINE_STATE_ONLINE = 2, ONLINE_STATE_SUPPRESSED = 1, ONLINE_STATE_OFFLINE = 0`. -/
def OnlineState.toNat : OnlineState → Nat
  | .offline => 0
  | .suppressed => 1
  | .online => 2

/-! `TauntState` is an `uint32` with values from `TAUNT_STATE_TAUNT` upwards. -/

def TAUNT_STATE_DETAUNT : Nat := 0
def TAUNT_STATE_NONE : Nat := 1
def TAUNT_STATE_TAUNT : Nat := 2

def THREAT_UPDATE_INTERVAL : Nat := 1000

/-- Online state, taunt state, threat. -/
abbrev SortKey := Nat ×ₗ Nat ×ₗ ℚ

structure ThreatReference (U : Type*) where
  owner : U
  victim : U
  online : OnlineState := .offline
  baseAmount : ℚ := 0
  tempModifier : Int := 0
  taunted : Nat := TAUNT_STATE_NONE

namespace ThreatReference

variable {U : Type*}

variable (ref : ThreatReference U)

def getThreat : ℚ := max (ref.baseAmount + ref.tempModifier) 0

def isOnline : Bool := ref.online = .online

def isAvailable : Bool := ref.online ≠ .offline

def isSuppressed : Bool := ref.online = .suppressed

def isOffline : Bool := ref.online = .offline

def isTaunting : Bool := TAUNT_STATE_TAUNT ≤ ref.taunted

def sortKey : SortKey :=
  toLex (ref.online.toNat, toLex (ref.taunted, ref.getThreat))

/-- "returns true if a is LOWER on the threat list than b". -/
def compareReferencesLT (a b : ThreatReference U) (aWeight : ℚ) : Bool :=
  if a.online ≠ b.online then a.online.toNat < b.online.toNat
  else if a.taunted ≠ b.taunted then a.taunted < b.taunted
  else a.getThreat * aWeight < b.getThreat

theorem toNat_injective : Function.Injective OnlineState.toNat := by
  intro s t h
  cases s <;> cases t <;> first | rfl | cases h

theorem compareReferencesLT_one (a b : ThreatReference U) :
    compareReferencesLT a b 1 = true ↔ a.sortKey < b.sortKey := by
  unfold compareReferencesLT sortKey
  simp only [Prod.Lex.toLex_lt_toLex, mul_one]
  by_cases honline : a.online = b.online
  · by_cases htaunt : a.taunted = b.taunted
    · simp [honline, htaunt]
    · simp [honline, htaunt]
  · have hne : a.online.toNat ≠ b.online.toNat := fun h => honline (toNat_injective h)
    simp [honline, hne]

end ThreatReference

/-- One call of `increase` or `decrease`: the key at the previous call, and now. -/
structure Notification where
  ref : RefId
  increased : Bool
  before : SortKey
  after : SortKey

def Truthful (increased : Bool) (before after : SortKey) : Prop :=
  if increased then before ≤ after else after ≤ before

structure ThreatManager (U H : Type*) where
  ownerCanHaveThreatList : Bool
  needClientUpdate : Bool := false
  updateTimer : Nat := THREAT_UPDATE_INTERVAL
  sortedThreatList : H
  myThreatListEntries : RefMap U := ∅
  needsAIUpdate : List U := []
  currentVictimRef : Option RefId := none
  fixateRef : Option RefId := none
  threatenedByMe : RefMap U := ∅

/-- The threat managers of all units and the reference objects. `seen` is the
key of each reference when its heap was last called about it. -/
structure ThreatWorld (U H : Type*) where
  ref : RefId → ThreatReference U
  live : RefId → Bool
  nextRef : RefId
  manager : U → ThreatManager U H
  seen : RefId → SortKey
  notifications : List Notification

namespace ThreatWorld

variable {U H : Type*} [DecidableEq U] (q : PriorityQueue RefId SortKey H)

variable (w : ThreatWorld U H)

def entries (a : U) : RefMap U := (w.manager a).myThreatListEntries

def threatenedByMe (w : ThreatWorld U H) (a : U) : RefMap U := (w.manager a).threatenedByMe

def heap (a : U) : H := (w.manager a).sortedThreatList

def sortKeys (id : RefId) : SortKey := (w.ref id).sortKey

def setRef (id : RefId) (ref : ThreatReference U) : ThreatWorld U H :=
  { w with ref := Function.update w.ref id ref }

def setManager (a : U) (manager : ThreatManager U H) : ThreatWorld U H :=
  { w with manager := Function.update w.manager a manager }

/-- `HeapNotifyIncreased`, `HeapNotifyDecreased`. -/
def heapNotify (increased : Bool) (id : RefId) : ThreatWorld U H :=
  let owner := (w.ref id).owner
  let heap := if increased then q.increase w.sortKeys (w.heap owner) id
    else q.decrease w.sortKeys (w.heap owner) id
  { w.setManager owner { w.manager owner with sortedThreatList := heap } with
    seen := Function.update w.seen id (w.sortKeys id)
    notifications := ⟨id, increased, w.seen id, w.sortKeys id⟩ :: w.notifications }

def clientUpdate (a : U) : ThreatWorld U H :=
  w.setManager a { w.manager a with needClientUpdate := true }

/-- `ThreatReference::AddThreat`. -/
def addRefThreat (id : RefId) (amount : ℚ) : ThreatWorld U H :=
  let ref := w.ref id
  if amount = 0 then w
  else
    let w := w.setRef id { ref with baseAmount := max (ref.baseAmount + amount) 0 }
    let w := if amount > 0 then w.heapNotify q true id else w.heapNotify q false id
    w.clientUpdate ref.owner

/-- `ThreatReference::ScaleThreat`. -/
def scaleRefThreat (id : RefId) (factor : ℚ) : ThreatWorld U H :=
  let ref := w.ref id
  if factor = 1 then w
  else
    let w := w.setRef id { ref with baseAmount := ref.baseAmount * factor }
    let w := if factor > 1 then w.heapNotify q true id else w.heapNotify q false id
    w.clientUpdate ref.owner

def shouldBeOffline (view : View U) (ref : ThreatReference U) : Bool :=
  !view.canSeeOrDetect ref.owner ref.victim ||
    (!view.isTargetAcceptable ref.owner ref.victim || !view.canCreatureAttack ref.owner ref.victim) ||
    (!view.flagsAllowFighting ref.owner ref.victim || !view.flagsAllowFighting ref.victim ref.owner)

def shouldBeSuppressed (view : View U) (ref : ThreatReference U) : Bool :=
  if ref.isTaunting then false
  else view.isImmunedToMeleeDamageOf ref.victim ref.owner || view.isConfused ref.victim ||
    view.hasBreakableStun ref.victim

/-- `ThreatReference::UpdateOffline`. -/
def updateOffline (view : View U) (w : ThreatWorld U H) (id : RefId) : ThreatWorld U H :=
  let ref := w.ref id
  if shouldBeOffline view ref = ref.isOffline then w
  else if shouldBeOffline view ref then
    (w.setRef id { ref with online := .offline }).heapNotify q false id
  else
    let state := if shouldBeSuppressed view ref then OnlineState.suppressed else .online
    let w := (w.setRef id { ref with online := state }).heapNotify q true id
    w.setManager ref.owner
      { w.manager ref.owner with
        needsAIUpdate := (w.manager ref.owner).needsAIUpdate ++ [ref.victim] }

/-- `ThreatReference::UpdateTauntState`. -/
def updateTauntState (view : View U) (w : ThreatWorld U H) (id : RefId) (state : Nat) :
    ThreatWorld U H :=
  let ref := w.ref id
  let state := if state < TAUNT_STATE_TAUNT ∧ view.isDetauntedBy ref.victim ref.owner then
    TAUNT_STATE_DETAUNT else state
  if state = ref.taunted then w
  else
    let w := w.setRef id { ref with taunted := state }
    let w := if state < ref.taunted then w.heapNotify q false id else w.heapNotify q true id
    w.clientUpdate ref.owner

end ThreatWorld

/-!
# Threat lists

The functions of `ThreatManager` that leave combat alone (`ThreatManager.cpp:200-351`,
`467-672`, `747-774`, `858-894`). A unit without a threat list has an empty one.
-/

namespace ThreatWorld

variable {U H : Type*} [DecidableEq U] (q : PriorityQueue RefId SortKey H) (view : View U)

variable (w : ThreatWorld U H)

/-- `IsThreatListEmpty(true)`. -/
def isThreatListEmpty (a : U) : Bool := (q.elements (w.heap a)).isEmpty

/-- `GetThreat(who, true)`. -/
def getThreat (w : ThreatWorld U H) (a who : U) : ℚ :=
  match (w.entries a).lookup who with
  | none => 0
  | some id => (w.ref id).getThreat

def setOnline (id : RefId) (state : OnlineState) (increased : Bool) : ThreatWorld U H :=
  (w.setRef id { w.ref id with online := state }).heapNotify q increased id

def evaluateSuppressedRef (canExpire : Bool) (w : ThreatWorld U H) (id : RefId) : ThreatWorld U H :=
  let ref := w.ref id
  if ref.isOnline && shouldBeSuppressed view ref then w.setOnline q id .suppressed false
  else if canExpire && ref.isSuppressed && !shouldBeSuppressed view ref then
    w.setOnline q id .online true
  else w

/-- `EvaluateSuppressed`, for references on the lists of others. -/
def evaluateSuppressed (a : U) (canExpire : Bool) : ThreatWorld U H :=
  (view.entries (w.threatenedByMe a)).foldl
    (fun w entry => w.evaluateSuppressedRef q view canExpire entry.2) w

/-- The search below the highest reference for one in melee range. -/
def searchVictim (w : ThreatWorld U H) (a : U) (oldVictimRef : RefId) :
    List RefId → Except Fault RefId
  | [] => .error .victimNotFound
  | next :: rest =>
    if next = oldVictimRef then .ok next
    else if !(w.ref oldVictimRef).compareReferencesLT (w.ref next) (11 / 10) then .ok oldVictimRef
    else if view.isWithinMeleeRange a (w.ref next).victim then .ok next
    else searchVictim w a oldVictimRef rest

/-- The part of `ReselectVictim` after the online states are up to date. -/
def chooseVictim (a : U) : Except Fault (Option RefId) :=
  match (w.manager a).fixateRef.filter fun id => (w.ref id).isAvailable with
  | some fixateRef => .ok (some fixateRef)
  | none =>
    match q.top (w.heap a) with
    | none => .ok none
    | some highest =>
      if !(w.ref highest).isAvailable then .ok none
      else
        match (w.manager a).currentVictimRef.filter fun id => !(w.ref id).isOffline with
        | none => .ok (some highest)
        | some oldVictimRef =>
          if highest = oldVictimRef then .ok (some highest)
          else if !(w.ref oldVictimRef).compareReferencesLT (w.ref highest) (11 / 10) then
            .ok (some oldVictimRef)
          else if (w.ref oldVictimRef).compareReferencesLT (w.ref highest) (13 / 10) then
            .ok (some highest)
          else if view.isWithinMeleeRange a (w.ref highest).victim then .ok (some highest)
          else (w.searchVictim view a oldVictimRef (q.ordered w.sortKeys (w.heap a))).map some

def updateOnlineStates (a : U) : ThreatWorld U H :=
  (view.entries (w.entries a)).foldl (fun w entry => w.updateOffline q view entry.2) w

def reselectVictim (a : U) : Except Fault (ThreatWorld U H × Option RefId) :=
  if w.isThreatListEmpty q a then .ok (w, none)
  else
    let w := w.updateOnlineStates q view a
    (w.chooseVictim q view a).map fun victim => (w, victim)

/-- `UpdateVictim`; `ProcessAIUpdates` empties the list of AI updates. -/
def updateVictim (a : U) : Except Fault (ThreatWorld U H) := do
  let (w, newVictim) ← w.reselectVictim q view a
  let manager := w.manager a
  let newHighest := newVictim.isSome && newVictim ≠ manager.currentVictimRef
  .ok (w.setManager a
    { manager with
      currentVictimRef := newVictim
      needClientUpdate :=
        if newHighest || manager.needClientUpdate then false else manager.needClientUpdate
      needsAIUpdate := [] })

/-- "we only add the threat if the ref is currently available". -/
def addOnlineThreat (id : RefId) (amount : ℚ) : ThreatWorld U H :=
  if (w.ref id).isOnline then w.addRefThreat q id amount else w

/-- `if (!_currentVictimRef) UpdateVictim(); else ProcessAIUpdates();`. -/
def updateMissingVictim (a : U) : Except Fault (ThreatWorld U H) :=
  if (w.manager a).currentVictimRef = none then w.updateVictim q view a
  else .ok (w.setManager a { w.manager a with needsAIUpdate := [] })

/-- `ThreatManager::Update`. -/
def update (a : U) (tdiff : Nat) : Except Fault (ThreatWorld U H) :=
  if !(w.manager a).ownerCanHaveThreatList || w.isThreatListEmpty q a then .ok w
  else if (w.manager a).updateTimer ≤ tdiff then do
    let w ← w.updateVictim q view a
    .ok (w.setManager a { w.manager a with updateTimer := THREAT_UPDATE_INTERVAL })
  else
    .ok (w.setManager a { w.manager a with updateTimer := (w.manager a).updateTimer - tdiff })

def putThreatListRef (a guid : U) (id : RefId) : Except Fault (ThreatWorld U H) :=
  let manager := w.manager a
  if (manager.myThreatListEntries.lookup guid).isSome then .error .duplicateThreatReference
  else .ok
    { w.setManager a
        { manager with
          needClientUpdate := true
          myThreatListEntries := manager.myThreatListEntries.insert guid id
          sortedThreatList := q.push w.sortKeys manager.sortedThreatList id } with
      seen := Function.update w.seen id (w.sortKeys id) }

def putThreatenedByMeRef (a guid : U) (id : RefId) : Except Fault (ThreatWorld U H) :=
  let manager := w.manager a
  if (manager.threatenedByMe.lookup guid).isSome then .error .duplicateThreatenedByMe
  else .ok (w.setManager a
    { manager with threatenedByMe := manager.threatenedByMe.insert guid id })

def purgeThreatListRef (a guid : U) : ThreatWorld U H :=
  let manager := w.manager a
  match manager.myThreatListEntries.lookup guid with
  | none => w
  | some id => w.setManager a
      { manager with
        myThreatListEntries := manager.myThreatListEntries.erase guid
        sortedThreatList := q.erase w.sortKeys manager.sortedThreatList id
        fixateRef := if manager.fixateRef = some id then none else manager.fixateRef
        currentVictimRef :=
          if manager.currentVictimRef = some id then none else manager.currentVictimRef }

def purgeThreatenedByMeRef (a guid : U) : ThreatWorld U H :=
  w.setManager a { w.manager a with threatenedByMe := (w.manager a).threatenedByMe.erase guid }

/-- `new ThreatReferenceImpl(this, target)`. -/
def create (ref : ThreatReference U) : ThreatWorld U H :=
  { w with
    ref := Function.update w.ref w.nextRef ref
    live := Function.update w.live w.nextRef true
    nextRef := w.nextRef + 1 }

/-- `ThreatReference::UnregisterAndFree`. -/
def unregisterAndFree (id : RefId) : ThreatWorld U H :=
  let ref := w.ref id
  let w := w.purgeThreatListRef q ref.owner ref.victim
  let w := w.purgeThreatenedByMeRef ref.victim ref.owner
  { w with live := Function.update w.live id false }

/-- `ClearThreat(ThreatReference*)` of the manager of `a`. -/
def clearThreatRef (a : U) (id : RefId) : Except Fault (ThreatWorld U H) :=
  let w := w.unregisterAndFree q id
  if (w.manager a).currentVictimRef = none then w.updateVictim q view a else .ok w

/-- `ClearThreat(Unit*)`. -/
def clearThreat (a target : U) : Except Fault (ThreatWorld U H) :=
  match (w.entries a).lookup target with
  | none => .ok w
  | some id => w.clearThreatRef q view a id

def clearAllThreat (a : U) : Except Fault (ThreatWorld U H) :=
  whileSome .unfinished (fun w : ThreatWorld U H => (view.entries (w.entries a)).head?)
    (fun w entry => .ok (w.unregisterAndFree q entry.2)) (w.entries a).entries.length w

def removeMeFromThreatLists (a : U) : Except Fault (ThreatWorld U H) :=
  whileSome .unfinished (fun w : ThreatWorld U H => (view.entries (w.threatenedByMe a)).head?)
    (fun w entry => w.clearThreat q view (w.ref entry.2).owner a)
    (w.threatenedByMe a).entries.length w

def fixateTarget (a : U) (target : Option U) : ThreatWorld U H :=
  w.setManager a
    { w.manager a with fixateRef := target.bind fun target => (w.entries a).lookup target }

/-- The priority of the last taunt effect of each caster. -/
def tauntStates (casters : List U) : AList fun _ : U => Nat :=
  (casters.zipIdx 1).foldl (fun states caster => states.insert caster.1 caster.2) ∅

/-- `TauntState(TAUNT_STATE_TAUNT + tauntStates.size() - it->second)`, an `uint32`. -/
def tauntStateOf (states : AList fun _ : U => Nat) (guid : U) : Nat :=
  match states.lookup guid with
  | none => TAUNT_STATE_NONE
  | some tauntPriority =>
    (((TAUNT_STATE_TAUNT + states.entries.length : Nat) - (tauntPriority : Int)) % 2 ^ 32).toNat

def tauntUpdate (a : U) : ThreatWorld U H :=
  let states := tauntStates (view.tauntCasters a)
  let w := (view.entries (w.entries a)).foldl
    (fun w entry => w.updateTauntState q view entry.2 (tauntStateOf states entry.1)) w
  w.evaluateSuppressed q view a true

def resetAllThreat (a : U) : ThreatWorld U H :=
  (view.entries (w.entries a)).foldl (fun w entry => w.scaleRefThreat q entry.2 0) w

/-- `ThreatManager::ScaleThreat`. -/
def scaleThreat (a target : U) (factor : ℚ) : ThreatWorld U H :=
  match (w.entries a).lookup target with
  | none => w
  | some id => w.scaleRefThreat q id (max factor 0)

def setTempModifier (id : RefId) (mod : Int) (increased : Bool) : ThreatWorld U H :=
  (w.setRef id { w.ref id with tempModifier := mod }).heapNotify q increased id

/-- `UpdateMyTempModifiers`: the direction is that of the first reference. -/
def updateMyTempModifiers (a : U) : ThreatWorld U H :=
  let mod := (view.totalThreatAuras a).sum
  match view.entries (w.threatenedByMe a) with
  | [] => w
  | first :: rest =>
    let isIncrease : Bool := (w.ref first.2).tempModifier < mod
    (first :: rest).foldl (fun w entry => w.setTempModifier q entry.2 mod isIncrease) w

end ThreatWorld

end LegionServer.Source.Combat
