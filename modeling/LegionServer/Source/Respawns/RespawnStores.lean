import Mathlib.Algebra.Order.Ring.Int
import LegionServer.Library.Outcome
import LegionServer.Library.Queues
import LegionServer.Source.Objects.ObjectGuid

/-!
# Respawn stores of a map

The heap of respawn times, the two maps by spawn id and the entries that all of
them point to (`Map.h:161-189`, `Map.cpp:82-92`, `1994-2195`, `2236-2285`,
`3650-3695`). Times are integers, so a linked time near the end of `time_t` is left
out. An entry is an address in a store that never hands out one twice; touching a
deleted one is a fault, as a failed `ASSERT` is.
-/
namespace LegionServer.Source.Respawns
open Library Source.Objects

inductive SpawnObjectType where
  | creature
  | gameObject
  | areaTrigger
  deriving DecidableEq, Repr

def SpawnObjectType.value : SpawnObjectType → Nat
  | .creature => 0
  | .gameObject => 1
  | .areaTrigger => 2

def NUM_SPAWN_TYPES_WITH_DATA : Nat := 3

def typeHasData (type : SpawnObjectType) : Bool := type.value < NUM_SPAWN_TYPES_WITH_DATA

def SPAWNGROUP_FLAG_ESCORTQUESTNPC : UInt32 := 0x10

def WEEK : Int := 7 * 24 * 60 * 60

/-- `std::numeric_limits<time_t>::max()` -/
def MAX_TIME : Int := 2 ^ 63 - 1

structure RespawnInfo where
  type : SpawnObjectType
  spawnId : UInt64
  entry : UInt32
  respawnTime : Int
  gridId : UInt32
  deriving DecidableEq, Repr

/-- Time backwards, then spawn id and type: the greatest key is due first. -/
abbrev RespawnKey := Intᵒᵈ ×ₗ Nat ×ₗ Nat

namespace RespawnInfo

def key (info : RespawnInfo) : RespawnKey :=
  toLex (OrderDual.toDual info.respawnTime, toLex (info.spawnId.toNat, info.type.value))

/-- `CompareRespawnInfo` of two entries; `none` where it asserts. -/
def compare (a b : RespawnInfo) : Option Bool :=
  if a.respawnTime ≠ b.respawnTime then some (a.respawnTime > b.respawnTime)
  else if a.spawnId ≠ b.spawnId then some (a.spawnId < b.spawnId)
  else if a.type = b.type then none
  else some (a.type.value < b.type.value)

theorem compare_ne_none {a b : RespawnInfo} (h : a.type ≠ b.type ∨ a.spawnId ≠ b.spawnId) :
    compare a b ≠ none := by
  unfold compare
  by_cases htime : a.respawnTime = b.respawnTime
  · by_cases hid : a.spawnId = b.spawnId
    · have htype : a.type ≠ b.type := h.resolve_right (not_not.mpr hid)
      simp [htime, hid, htype]
    · simp [htime, hid]
  · simp [htime]

end RespawnInfo

structure SpawnData where
  type : SpawnObjectType
  spawnId : UInt64
  /-- `spawnGroupData->groupId` -/
  groupId : UInt32
  /-- `spawnGroupData->flags` -/
  flags : UInt32

/-- What the map asks `sObjectMgr`, and its own ids. -/
structure MapContext where
  currentRealm : UInt32
  mapId : UInt16
  instanceable : Bool
  getSpawnData : SpawnObjectType → UInt64 → Option SpawnData
  spawnData_key : ∀ {type spawnId data}, getSpawnData type spawnId = some data →
    data.type = type ∧ data.spawnId = spawnId
  getLinkedRespawnGuid : ObjectGuid → ObjectGuid

inductive Fault where
  | assertion
  | abort
  /-- Use or deletion of a deleted entry, or `top` of an empty heap. -/
  | released
  | unfinished
  deriving DecidableEq, Repr

abbrev Pointer := Nat

/-- One call of `increase` or `decrease`: the key that the heap knew, and the new one. -/
structure Notification where
  increased : Bool
  before : RespawnKey
  after : RespawnKey

structure RespawnStores (H : Type) where
  info : Pointer → RespawnInfo
  live : Pointer → Bool
  /-- The next address `new` gives. -/
  next : Pointer
  respawnTimes : H
  creatureRespawnTimesBySpawnId : UInt64 → Option Pointer
  gameObjectRespawnTimesBySpawnId : UInt64 → Option Pointer
  /-- The times in the table `respawn` for this map and instance. -/
  saved : SpawnObjectType → UInt64 → Option Int
  seen : Pointer → RespawnKey
  notifications : List Notification

namespace RespawnStores

variable {H : Type} (q : PriorityQueue Pointer RespawnKey H) (c : MapContext)

variable (s : RespawnStores H)

def keys (p : Pointer) : RespawnKey := (s.info p).key

def read (p : Pointer) : Except Fault RespawnInfo :=
  if s.live p then .ok (s.info p) else .error .released

def getRespawnMapForType : SpawnObjectType → Option (UInt64 → Option Pointer)
  | .creature => some s.creatureRespawnTimesBySpawnId
  | .gameObject => some s.gameObjectRespawnTimesBySpawnId
  | .areaTrigger => none

/-- `GetRespawnInfo(type, spawnId)` -/
def getRespawnInfo (type : SpawnObjectType) (spawnId : UInt64) : Option Pointer :=
  match s.getRespawnMapForType type with
  | none => none
  | some map => map spawnId

/-- The map of this type gets or loses an element. -/
def setRespawnInfo (type : SpawnObjectType) (spawnId : UInt64) (p : Option Pointer) :
    RespawnStores H :=
  match type with
  | .creature => { s with
      creatureRespawnTimesBySpawnId := Function.update s.creatureRespawnTimesBySpawnId spawnId p }
  | .gameObject => { s with
      gameObjectRespawnTimesBySpawnId :=
        Function.update s.gameObjectRespawnTimesBySpawnId spawnId p }
  | .areaTrigger => s

/-- A heap operation may compare any two of these. -/
def compares (l : List Pointer) : Except Fault Unit :=
  if ∃ p ∈ l, s.live p = false then .error .released
  else if ∃ a ∈ l, ∃ b ∈ l, a ≠ b ∧ (s.info a).compare (s.info b) = none then .error .assertion
  else .ok ()

def setHeap (heap : H) : RespawnStores H := { s with respawnTimes := heap }

def heapPush (p : Pointer) : Except Fault (RespawnStores H) := do
  s.compares (p :: q.elements s.respawnTimes)
  return { s.setHeap (q.push s.keys s.respawnTimes p) with
    seen := Function.update s.seen p (s.keys p) }

def heapErase (p : Pointer) : Except Fault (RespawnStores H) := do
  s.compares (q.elements s.respawnTimes)
  return s.setHeap (q.erase s.keys s.respawnTimes p)

def heapPop : Except Fault (RespawnStores H) :=
  match q.top s.respawnTimes with
  | none => .error .released
  | some p => s.heapErase q p

/-- `increase`, `decrease` -/
def heapNotify (increased : Bool) (p : Pointer) :
    Except Fault (RespawnStores H) := do
  s.compares (q.elements s.respawnTimes)
  let heap := if increased then q.increase s.keys s.respawnTimes p
    else q.decrease s.keys s.respawnTimes p
  return { s.setHeap heap with
    seen := Function.update s.seen p (s.keys p)
    notifications := ⟨increased, s.seen p, s.keys p⟩ :: s.notifications }

/-- `info->respawnTime = respawnTime` -/
def setTime (p : Pointer) (respawnTime : Int) : RespawnStores H :=
  { s with info := Function.update s.info p { s.info p with respawnTime := respawnTime } }

/-- `delete p` -/
def free (p : Pointer) : Except Fault (RespawnStores H) :=
  if s.live p then .ok { s with live := Function.update s.live p false } else .error .released

def saveRow (type : SpawnObjectType) (spawnId : UInt64) (time : Option Int) : RespawnStores H :=
  if c.instanceable then s
  else { s with saved := Function.update s.saved type (Function.update (s.saved type) spawnId time) }

def saveRespawnInfoDB (info : RespawnInfo) : RespawnStores H :=
  s.saveRow c info.type info.spawnId (some info.respawnTime)

def deleteRespawnInfoFromDB (type : SpawnObjectType) (spawnId : UInt64) : RespawnStores H :=
  s.saveRow c type spawnId none

def deleteRespawnInfo (p : Pointer) : Except Fault (RespawnStores H) := do
  let info ← s.read p
  match s.getRespawnMapForType info.type with
  | none => return s
  | some spawnMap =>
    if spawnMap info.spawnId ≠ some p then throw .assertion
    let s ← (s.setRespawnInfo info.type info.spawnId none).heapErase q p
    (s.deleteRespawnInfoFromDB c info.type info.spawnId).free p

def removeRespawnTime (type : SpawnObjectType) (spawnId : UInt64) (alwaysDeleteFromDB : Bool) :
    Except Fault (RespawnStores H) := do
  let s ← match s.getRespawnInfo type spawnId with
    | some p => s.deleteRespawnInfo q c p
    | none => .ok s
  return if alwaysDeleteFromDB then s.deleteRespawnInfoFromDB c type spawnId else s

/-- `new RespawnInfoWithHandle(info)`, `push` and `emplace`. -/
def insertRespawnInfo (info : RespawnInfo) :
    Except Fault (RespawnStores H) := do
  let ri := s.next
  let s ← { s with
    info := Function.update s.info ri info
    live := Function.update s.live ri true
    next := ri + 1 }.heapPush q ri
  -- `emplace` leaves an element that is there
  return match s.getRespawnInfo info.type info.spawnId with
    | some _ => s
    | none => s.setRespawnInfo info.type info.spawnId (some ri)

def addRespawnInfo (info : RespawnInfo) :
    Except Fault (RespawnStores H × Bool) := do
  if info.spawnId = 0 then return (s, false)
  if (s.getRespawnMapForType info.type).isNone then return (s, false)
  if typeHasData info.type = false then throw .abort
  match s.getRespawnInfo info.type info.spawnId with
  | none =>
    let s ← s.insertRespawnInfo q info
    return (s, true)
  | some existing =>
    let old ← s.read existing
    if info.respawnTime < old.respawnTime then
      let s ← s.deleteRespawnInfo q c existing
      if (s.getRespawnInfo info.type info.spawnId).isSome then throw .assertion
      let s ← s.insertRespawnInfo q info
      return (s, true)
    else return (s, false)

def saveRespawnTime (type : SpawnObjectType) (spawnId : UInt64) (entry : UInt32)
    (respawnTime : Int) (gridId : UInt32) (startup : Bool) :
    Except Fault (RespawnStores H) :=
  match c.getSpawnData type spawnId with
  | none => .ok s
  | some data => do
    if respawnTime = 0 then s.removeRespawnTime q c data.type data.spawnId false
    else
      let ri : RespawnInfo := ⟨data.type, data.spawnId, entry, respawnTime, gridId⟩
      let (s, success) ← s.addRespawnInfo q c ri
      return if !startup && success then s.saveRespawnInfoDB c ri else s

/-- `Respawn(type, spawnId)` -/
def respawn (now : Int) (type : SpawnObjectType) (spawnId : UInt64) :
    Except Fault (RespawnStores H) :=
  match s.getRespawnInfo type spawnId with
  | none => .ok s
  | some p => do
    let info ← s.read p
    if info.respawnTime ≤ now then return s
    let s ← (s.setTime p now).heapNotify q true p
    let info ← s.read p
    return s.saveRespawnInfoDB c info

def unloadAllRespawnInfos : Except Fault (RespawnStores H) := do
  let s ← (q.elements s.respawnTimes).foldlM free s
  return { s with
    respawnTimes := q.empty
    creatureRespawnTimesBySpawnId := fun _ => none
    gameObjectRespawnTimesBySpawnId := fun _ => none }

end RespawnStores

/-- A call that spawning an object or updating a pool makes. -/
inductive RespawnCall where
  | addRespawnInfo (info : RespawnInfo)
  | saveRespawnTime (type : SpawnObjectType) (spawnId : UInt64) (entry : UInt32)
      (respawnTime : Int) (gridId : UInt32) (startup : Bool)
  | removeRespawnTime (type : SpawnObjectType) (spawnId : UInt64) (alwaysDeleteFromDB : Bool)

structure SpawnedCreature where
  isAlive : Bool
  isEscorted : Bool

/-- What the rest of the server answers and does during one round of `ProcessRespawns`. -/
structure Surroundings where
  isPartOfAPool : SpawnObjectType → UInt64 → UInt32
  isSpawnGroupActive : UInt32 → Bool
  dynamicEscortNPC : Bool
  creatureBySpawnIdStore : UInt64 → List SpawnedCreature
  /-- The number of game objects of a spawn. -/
  gameobjectBySpawnIdStore : UInt64 → Nat
  isGridLoaded : UInt32 → Bool
  /-- `urand(5, 15)` -/
  delay : { n : Nat // 5 ≤ n ∧ n ≤ 15 }
  /-- What `UpdatePool`, or loading the object in `DoRespawn`, calls. -/
  calls : List RespawnCall

namespace RespawnStores

variable {H : Type} (q : PriorityQueue Pointer RespawnKey H) (c : MapContext)

variable (s : RespawnStores H)

def perform : RespawnCall → Except Fault (RespawnStores H)
  | .addRespawnInfo info => (s.addRespawnInfo q c info).map Prod.fst
  | .saveRespawnTime type spawnId entry respawnTime gridId startup =>
    s.saveRespawnTime q c type spawnId entry respawnTime gridId startup
  | .removeRespawnTime type spawnId alwaysDeleteFromDB =>
    s.removeRespawnTime q c type spawnId alwaysDeleteFromDB

def performAll (calls : List RespawnCall) : Except Fault (RespawnStores H) :=
  calls.foldlM (perform q c) s

def getRespawnTime (type : SpawnObjectType) (spawnId : UInt64) : Except Fault Int :=
  match s.getRespawnInfo type spawnId with
  | none => .ok 0
  | some p => (s.read p).map RespawnInfo.respawnTime

def getLinkedRespawnTime (guid : ObjectGuid) : Except Fault Int :=
  let linkedGuid := c.getLinkedRespawnGuid guid
  match linkedGuid.getHigh with
  | some .creature => s.getRespawnTime .creature linkedGuid.getCounter
  | some .gameObject => s.getRespawnTime .gameObject linkedGuid.getCounter
  | _ => .ok 0

def alreadyExists (w : Surroundings) (data : SpawnData) (info : RespawnInfo) : Except Fault Bool :=
  match info.type with
  | .creature =>
    let isEscort := w.dynamicEscortNPC && data.flags &&& SPAWNGROUP_FLAG_ESCORTQUESTNPC ≠ 0
    .ok ((w.creatureBySpawnIdStore info.spawnId).any fun creature =>
      creature.isAlive && !(isEscort && creature.isEscorted))
  | .gameObject => .ok (w.gameobjectBySpawnIdStore info.spawnId ≠ 0)
  | .areaTrigger => .error .abort

/-- `thisGUID` -/
def spawnGuid (info : RespawnInfo) : ObjectGuid :=
  let high := if info.type = .gameObject then .gameObject else .creature
  ObjectGuidFactory.createWorldObject c.currentRealm high 0 0 c.mapId 0 info.entry info.spawnId

/-- `CheckRespawn`, with the `respawnTime` that it leaves in the entry. -/
def checkRespawn (w : Surroundings) (now : Int) (info : RespawnInfo) :
    Except Fault (Bool × Int) := do
  match c.getSpawnData info.type info.spawnId with
  | none => throw .assertion
  | some data =>
    if w.isSpawnGroupActive data.groupId = false then return (false, 0)
    if ← alreadyExists w data info then return (false, 0)
    let thisGUID := spawnGuid c info
    let linkedTime ← s.getLinkedRespawnTime c thisGUID
    if linkedTime ≠ 0 then
      return (false,
        if linkedTime = MAX_TIME then linkedTime
        -- never respawn
        else if c.getLinkedRespawnGuid thisGUID = thisGUID then now + WEEK
        else max now linkedTime + w.delay.val)
    return (true, info.respawnTime)

/-- Step 1: the entry is out of reach of outside logic. -/
def takeOut (p : Pointer) : Except Fault (RespawnStores H) := do
  let s ← s.heapPop q
  let info ← s.read p
  match s.getRespawnMapForType info.type with
  | none => throw .assertion
  | some _ => return s.setRespawnInfo info.type info.spawnId none

def getRidOf (p : Pointer) : Except Fault (RespawnStores H) := do
  let info ← s.read p
  let s ← s.removeRespawnTime q c info.type info.spawnId true
  s.free p

def doRespawn (w : Surroundings) (info : RespawnInfo) : Except Fault (RespawnStores H) :=
  if w.isGridLoaded info.gridId = false then .ok s
  else
    match info.type with
    | .creature | .gameObject => s.performAll q c w.calls
    | .areaTrigger => .error .abort

/-- Steps 1 and 2. -/
def handOver (w : Surroundings) (pooled : Bool) (p : Pointer) :
    Except Fault (RespawnStores H) := do
  let s ← s.takeOut q p
  let info ← s.read p
  if pooled then s.performAll q c w.calls else s.doRespawn q c w info

/-- One round of `ProcessRespawns`, for the top of the heap. -/
def round (now : Int) (w : Surroundings) (s : RespawnStores H) (p : Pointer) :
    Except Fault (RespawnStores H) := do
  let info ← s.read p
  if w.isPartOfAPool info.type info.spawnId ≠ 0 then
    let s ← s.handOver q c w true p
    s.getRidOf q c p
  else
    let (allowed, respawnTime) ← s.checkRespawn c w now info
    let s := s.setTime p respawnTime
    if allowed then
      let s ← s.handOver q c w false p
      s.getRidOf q c p
    else if respawnTime = 0 then
      let s ← s.takeOut q p
      s.getRidOf q c p
    else
      -- infinite loop guard
      if ¬ now < respawnTime then throw .assertion
      let s ← s.heapNotify q false p
      let info ← s.read p
      return s.saveRespawnInfoDB c info

/-- The top of the heap where its time has come. A deleted one is read all the same. -/
def dueTop (now : Int) (s : RespawnStores H) : Option Pointer :=
  (q.top s.respawnTimes).filter fun p => !s.live p || (s.info p).respawnTime ≤ now

/-- A round of the loop, which also counts them. -/
def nextRound (now : Int) (surroundings : Nat → Surroundings) (loop : RespawnStores H × Nat)
    (p : Pointer) : Except Fault (RespawnStores H × Nat) := do
  let s ← round q c now (surroundings loop.2) loop.1 p
  return (s, loop.2 + 1)

/-- `ProcessRespawns`, for at most as many rounds as there is fuel. -/
def processRespawns (now : Int) (surroundings : Nat → Surroundings) (fuel : Nat)
    (s : RespawnStores H) : Except Fault (RespawnStores H × Nat) :=
  whileSome .unfinished (fun loop => dueTop q now loop.1) (nextRound q c now surroundings) fuel
    (s, 0)

end RespawnStores

end LegionServer.Source.Respawns
