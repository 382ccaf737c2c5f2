import LegionServer.Library.FlatSet
import Mathlib.Order.Nat

/-!
# The motion master of a unit

`MotionMaster` from `AddToWorld` on (`MotionMaster.cpp:51-128`, `279-488`, `1217-1373`). What a
generator does when it is called is open: it may change the unit state of the owner, and during
`Update` it may make all calls of the motion master that are put off then. Its flags change as in
the generators of `MovementGenerators`. What has become of the generators is recorded.
-/
namespace LegionServer.Source.Movement
open Library

/-- `IdleMovementGenerator`, `ImmediateMovementGenerator` and all others. -/
inductive GeneratorKind
  | idle | immediate | resumable
  deriving DecidableEq, Repr

/-- The unit states that generators have as `BaseUnitState`. -/
inductive BaseUnitState
  | none | roaming | chase | fleeing | inFlight | follow | confused | distracted | charging
  | jumping | followFormation | rotating
  deriving DecidableEq, Repr

def BaseUnitState.mask : BaseUnitState → BitVec 32
  | none => 0x00000000
  | roaming => 0x00000010
  | chase => 0x00000020
  | fleeing => 0x00000080
  | inFlight => 0x00000100
  | follow => 0x00000200
  | confused => 0x00000800
  | distracted => 0x00001000
  | charging => 0x00020000
  | jumping => 0x00040000
  | followFormation => 0x00080000
  | rotating => 0x00200000

structure MovementGenerator where
  /-- the object -/
  id : Nat
  kind : GeneratorKind
  type : Nat
  priority : Nat
  baseUnitState : BaseUnitState
  deriving DecidableEq, Repr

/-- `MovementGeneratorComparator` -/
def MovementGenerator.order (g : MovementGenerator) : ℕᵒᵈ := OrderDual.toDual g.priority

def motionPriorityNormal : Nat := 64

/-- `GetIdleMovementGenerator`: one object for all units -/
def getIdleMovementGenerator : MovementGenerator := ⟨0, .idle, 0, motionPriorityNormal, .none⟩

def isStatic (movement : MovementGenerator) : Bool := movement = getIdleMovementGenerator

structure GeneratorFlags where
  initializationPending : Bool
  deactivated : Bool
  deriving DecidableEq, Repr

namespace GeneratorFlags

def constructed : GeneratorKind → GeneratorFlags
  | .idle => ⟨false, false⟩
  | .immediate | .resumable => ⟨true, false⟩

def onInitialize (f : GeneratorFlags) : GeneratorKind → GeneratorFlags
  | .idle => f
  | .immediate => { f with initializationPending := false }
  | .resumable => ⟨false, false⟩

def onReset (f : GeneratorFlags) : GeneratorKind → GeneratorFlags
  | .idle | .immediate => f
  | .resumable => { f with deactivated := false }

def onDeactivate (f : GeneratorFlags) : GeneratorKind → GeneratorFlags
  | .idle | .immediate => f
  | .resumable => { f with deactivated := true }

end GeneratorFlags

inductive MovementSlot
  | default | active
  deriving DecidableEq, Repr

def isInvalidMovementGeneratorType (type : Nat) : Bool := type = 3 || 20 ≤ type

/-- The calls that are put off during `Update`. A pointer to remove is read for its priority. -/
inductive Call
  | restart
  | add (movement : MovementGenerator) (slot : MovementSlot)
  | remove (movement : MovementGenerator) (slot : MovementSlot)
  | removeType (type : Nat) (slot : MovementSlot)
  | clear
  | clearSlot (slot : MovementSlot)
  | clearPriority (priority : Nat)
  deriving DecidableEq, Repr

structure MotionMaster where
  updating : Bool := false
  staticInitializationPending : Bool := false
  initializationPending : Bool := true
  initializing : Bool := false
  defaultGenerator : Option MovementGenerator := none
  generators : FlatSet MovementGenerator.order := .empty
  baseUnitStatesMap : List (BaseUnitState × MovementGenerator) := []
  delayedActions : List Call := []
  /-- the state of the owner -/
  unitState : BitVec 32 := 0
  flags : MovementGenerator → GeneratorFlags := fun g => .constructed g.kind
  /-- the generators handed to `Add`, and how often each was finalized and deleted -/
  handed : List MovementGenerator := []
  finalized : MovementGenerator → Nat := fun _ => 0
  deleted : MovementGenerator → Nat := fun _ => 0
  assertFailed : Bool := false

/-- `Creature::GetDefaultMovementType` -/
inductive DefaultMovementType
  | idle | random | waypoint
  deriving DecidableEq, Repr

/-- `FactorySelector::SelectMovementGenerator` -/
def DefaultMovementType.create : DefaultMovementType → MovementGenerator
  | idle => getIdleMovementGenerator
  | random => ⟨0, .resumable, 1, motionPriorityNormal, .roaming⟩
  | waypoint => ⟨0, .resumable, 2, motionPriorityNormal, .roaming⟩

/-- What generators do outside of `Update`: the new unit state of the owner, and whether
`Initialize` succeeds. -/
structure Callbacks where
  defaultMovementType : DefaultMovementType
  onInitialize : MotionMaster → MovementGenerator → Bool × BitVec 32
  onDeactivate : MotionMaster → MovementGenerator → BitVec 32
  onFinalize : MotionMaster → MovementGenerator → Bool → Bool → BitVec 32

namespace MotionMaster

variable (s : MotionMaster) (movement : MovementGenerator)

def empty : Bool := s.defaultGenerator.isNone && s.generators.items.isEmpty

def getCurrentMovementGenerator : Option MovementGenerator :=
  s.generators.items.head?.or s.defaultGenerator

/-- `MOTIONMASTER_FLAG_DELAYED` -/
def delayed : Bool := s.updating || s.initializationPending

def setFlags (f : GeneratorFlags) : MotionMaster :=
  { s with flags := Function.update s.flags movement f }

def recordFinalize : MotionMaster :=
  { s with finalized := Function.update s.finalized movement (s.finalized movement + 1) }

def deleteObject : MotionMaster :=
  { s with deleted := Function.update s.deleted movement (s.deleted movement + 1) }

def movementGeneratorPointerDeleter : MotionMaster :=
  if isStatic movement then s else s.deleteObject movement

def handOver : MovementGenerator × MotionMaster :=
  let movement := if movement.kind = .idle then getIdleMovementGenerator
    else { movement with id := s.handed.length + 1 }
  (movement, { s with handed := movement :: s.handed })

def addBaseUnitState : MotionMaster :=
  if movement.baseUnitState = .none then s
  else
    { s with
      baseUnitStatesMap := (movement.baseUnitState, movement) :: s.baseUnitStatesMap
      unitState := s.unitState ||| movement.baseUnitState.mask }

def clearBaseUnitState : MotionMaster :=
  if movement.baseUnitState = .none then s
  else
    let states := s.baseUnitStatesMap.filter fun p => p ≠ (movement.baseUnitState, movement)
    { s with
      baseUnitStatesMap := states
      unitState := if states.countP (·.1 = movement.baseUnitState) = 0 then
        s.unitState &&& ~~~movement.baseUnitState.mask else s.unitState }

def clearBaseUnitStates : MotionMaster :=
  { s with
    baseUnitStatesMap := []
    unitState := s.unitState &&& ~~~(s.baseUnitStatesMap.foldl (fun u p => u ||| p.1.mask) 0) }

/-- `Delete`, where `Finalize` does what is given. -/
def delete (onFinalize : MotionMaster → MotionMaster) : MotionMaster :=
  let s := onFinalize s
  let s := s.clearBaseUnitState movement
  s.movementGeneratorPointerDeleter movement

/-- `Remove` of an iterator -/
def removeAt (onFinalize : MotionMaster → MotionMaster) : MotionMaster :=
  let s := { s with generators := s.generators.erase movement.order }
  s.delete movement onFinalize

def pop (onFinalize : MovementGenerator → MotionMaster → MotionMaster) : MotionMaster :=
  match s.generators.items with
  | [] => s
  | movement :: _ => s.removeAt movement (onFinalize movement)

variable (c : Callbacks)

/-- `movement->Initialize(_owner)` -/
def onInitialize : MotionMaster × Bool :=
  let s := s.setFlags movement ((s.flags movement).onInitialize movement.kind)
  let (success, unitState) := c.onInitialize s movement
  ({ s with unitState }, success)

/-- `movement->Deactivate(_owner)` -/
def onDeactivate : MotionMaster :=
  let s := s.setFlags movement ((s.flags movement).onDeactivate movement.kind)
  { s with unitState := c.onDeactivate s movement }

/-- `movement->Finalize(_owner, active, movementInform)` -/
def onFinalize (active movementInform : Bool) : MotionMaster :=
  let s := s.recordFinalize movement
  { s with unitState := c.onFinalize s movement active movementInform }

def remove (active movementInform : Bool) : MotionMaster :=
  s.removeAt movement fun s => s.onFinalize movement c active movementInform

def deleteDefault (active movementInform : Bool) : MotionMaster :=
  let s := s.onFinalize movement c active movementInform
  let s := { s with defaultGenerator := some getIdleMovementGenerator }
  let s := s.movementGeneratorPointerDeleter movement
  { s with staticInitializationPending := true }

def directClearDefault : MotionMaster :=
  match s.defaultGenerator with
  | some movement => s.deleteDefault movement c s.generators.items.isEmpty false
  | none => s

def directClear : MotionMaster :=
  let s := match s.generators.items with
    | [] => s
    | top :: rest => rest.foldl (fun s movement => s.remove movement c false false)
        (s.remove top c true false)
  s.clearBaseUnitStates

def directClearIf (filter : MovementGenerator → Bool) : MotionMaster :=
  let top := s.getCurrentMovementGenerator
  (s.generators.items.filter filter).foldl
    (fun s movement => s.remove movement c (top = some movement) false) s

/-- What `DirectAdd` does with the generators before the new one. -/
def makeRoom : MotionMaster :=
  match s.generators.items with
  | [] =>
    match s.defaultGenerator with
    | some default => s.onDeactivate default c
    | none => s
  | top :: _ =>
    match s.generators.lowerBound movement.order with
    | some found =>
      if movement.kind ≠ .immediate ∧ found.order = movement.order then
        s.remove found c (found = top) false
      else if found = top then s.onDeactivate top c
      else s
    | none => s

def directAdd : MovementSlot → MotionMaster
  | .default =>
    let before := s.defaultGenerator
    let s := match before with
      | some default => s.onFinalize default c s.generators.items.isEmpty false
      | none => s
    let s := { s with defaultGenerator := some movement }
    let s := match before with
      | some default => s.movementGeneratorPointerDeleter default
      | none => s
    if isStatic movement then { s with staticInitializationPending := true } else s
  | .active =>
    let s := s.makeRoom movement c
    if movement.kind = .immediate then
      let s := s.onFinalize movement c true true
      s.deleteObject movement
    else
      let s := { s with generators := (s.generators.emplace movement).1 }
      s.addBaseUnitState movement

/-- `Add`, where `Initialize` of an immediate generator does what is given. -/
def add (start : MotionMaster → MotionMaster × Bool) (slot : MovementSlot) : MotionMaster :=
  let (s, success) :=
    if movement.kind = .immediate ∧ (s.flags movement).initializationPending then
      if s.generators.lowerBound movement.order = s.generators.items.head? then start s
      else (s, false)
    else (s, true)
  if !success then s.deleteObject movement
  else if s.delayed then
    { s with delayedActions := s.delayedActions ++ [.add movement slot] }
  else s.directAdd movement c slot

def initializeDefault : MotionMaster :=
  let (movement, s) := s.handOver c.defaultMovementType.create
  s.add movement c (fun s => s.onInitialize movement c) .default

def directInitialize : MotionMaster :=
  let s := s.directClearDefault c
  let s := s.directClear c
  s.initializeDefault c

def directCall : Call → MotionMaster
  | .restart => s.directInitialize c
  | .add movement slot => s.directAdd movement c slot
  | .remove movement .default =>
    if s.defaultGenerator = some movement then s.directClearDefault c else s
  | .remove movement .active =>
    match s.generators.find movement.order with
    | some found => s.remove found c (s.getCurrentMovementGenerator = some found) false
    | none => s
  | .removeType type .default =>
    if s.defaultGenerator.map MovementGenerator.type = some type then s.directClearDefault c else s
  | .removeType type .active => s.directClearIf c fun movement => movement.type = type
  | .clear => s.directClear c
  | .clearSlot .default => s.directClearDefault c
  | .clearSlot .active => s.directClear c
  | .clearPriority priority => s.directClearIf c fun movement => movement.priority = priority

/-- A call of the motion master, where `Initialize` of an immediate generator does what is
given. -/
def call (start : MovementGenerator → MotionMaster → MotionMaster × Bool) : Call → MotionMaster
  | .restart =>
    if s.initializationPending then s
    else if s.updating then { s with delayedActions := s.delayedActions ++ [.restart] }
    else s.directCall c .restart
  | .add movement slot => s.add movement c (start movement) slot
  | .removeType type slot =>
    if isInvalidMovementGeneratorType type then s
    else if s.delayed then
      { s with delayedActions := s.delayedActions ++ [.removeType type slot] }
    else if s.empty then s
    else s.directCall c (.removeType type slot)
  | made =>
    if s.delayed then { s with delayedActions := s.delayedActions ++ [made] }
    else if s.empty then s
    else s.directCall c made

/-- A call from outside, which hands a generator over. -/
def request (start : MovementGenerator → MotionMaster → MotionMaster × Bool) :
    Call → MotionMaster
  | .add movement slot =>
    let (movement, s) := s.handOver movement
    s.call c start (.add movement slot)
  | made => s.call c start made

def resolveDelayedActions : MotionMaster :=
  s.delayedActions.foldl (fun s made => s.call c (fun movement s => s.onInitialize movement c) made)
    { s with delayedActions := [] }

def addToWorld : MotionMaster :=
  if !s.initializationPending then s
  else
    let s := { s with initializing := true, initializationPending := false }
    let s := s.directInitialize c
    let s := s.resolveDelayedActions c
    { s with initializing := false }

end MotionMaster

/-- What a generator does when it is called during `Update`. Where it adds an immediate generator,
`Initialize` of that one comes first. -/
inductive Behaviour
  | done (result : Bool) (unitState : BitVec 32 → BitVec 32)
  | call (made : Call) (start : Behaviour) (rest : Behaviour)

/-- What it does to the motion master, and its result. -/
def Behaviour.run (c : Callbacks) : Behaviour → MotionMaster → MotionMaster × Bool
  | done result unitState => fun s => ({ s with unitState := unitState s.unitState }, result)
  | call made start rest => fun s =>
    rest.run c (s.request c (fun movement s =>
      start.run c (s.setFlags movement ((s.flags movement).onInitialize movement.kind))) made)

/-- What the top generator does when `Update` calls it. -/
structure UpdateCallbacks where
  staticInitialize : Behaviour
  onInitialize : Behaviour
  onReset : Behaviour
  onUpdate : Behaviour
  onFinalize : Behaviour

inductive InitState
  | failed | success | alreadyInitialized
  deriving DecidableEq, Repr

namespace MotionMaster

variable (c : Callbacks) (u : UpdateCallbacks) (s : MotionMaster) (top : MovementGenerator)

/-- The result of a call as the state of the initialization. -/
def initState (r : MotionMaster × Bool) : MotionMaster × InitState :=
  (r.1, if r.2 then .success else .failed)

def startTop : MotionMaster × InitState :=
  let r := if s.staticInitializationPending && isStatic top then
      initState (u.staticInitialize.run c { s with staticInitializationPending := false })
    else (s, .alreadyInitialized)
  let r := if (r.1.flags top).initializationPending then
      initState (u.onInitialize.run c (r.1.setFlags top ((r.1.flags top).onInitialize top.kind)))
    else r
  if (r.1.flags top).deactivated then
    initState (u.onReset.run c (r.1.setFlags top ((r.1.flags top).onReset top.kind)))
  else r

def assert (condition : Bool) : MotionMaster :=
  if condition then s else { s with assertFailed := true }

def update : MotionMaster :=
  if s.initializationPending || s.initializing then s
  else if s.empty then s.assert false
  else
    match s.getCurrentMovementGenerator with
    | none => s
    | some top =>
      let (s, state) := startTop c u { s with updating := true } top
      let s := s.assert (!(s.flags top).initializationPending && !(s.flags top).deactivated)
      let (s, running) := if state = .failed then (s, false) else u.onUpdate.run c s
      let s := if running then s
        else
          let s := s.assert (s.getCurrentMovementGenerator = some top)
          s.pop fun movement s => (u.onFinalize.run c (s.recordFinalize movement)).1
      resolveDelayedActions { s with updating := false } c

end MotionMaster

/-- A call of the motion master from outside of its callbacks. -/
inductive Step
  | addToWorld (c : Callbacks)
  | call (c : Callbacks) (made : Call)
  | update (c : Callbacks) (u : UpdateCallbacks)

def Step.exec (s : MotionMaster) : Step → MotionMaster
  | addToWorld c => s.addToWorld c
  | call c made => s.request c (fun movement s => s.onInitialize movement c) made
  | update c u => s.update c u

end LegionServer.Source.Movement
