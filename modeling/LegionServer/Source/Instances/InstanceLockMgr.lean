import LegionServer.Library.KeyedRows

/-!
# The tables of instance locks

`character_instance_lock` and `instance` with their keys (`InstanceLockMgr.h:31-56`,
`characters_database.sql`), and the statements that `InstanceLockMgr` issues. The texts of the
prepared statements are not part of the source: what a statement does is a parameter, of which
`Executes` says what its name and its bound values promise.
-/
namespace LegionServer.Source.Instances
open Library List

/-- A row of `character_instance_lock`. -/
structure LockRow where
  guid : UInt64
  mapId : UInt32
  lockId : UInt32
  instanceId : UInt32
  difficulty : UInt8
  data : String
  completedEncountersMask : UInt32
  entranceWorldSafeLocId : UInt32
  expiryTime : UInt64
  extended : UInt8
  deriving DecidableEq, Repr

/-- `PRIMARY KEY (guid, mapId, lockId)` -/
def LockRow.key (row : LockRow) : UInt64 × UInt32 × UInt32 := (row.guid, row.mapId, row.lockId)

/-- `UNIQUE KEY uk_character_instanceId (guid, instanceId)` -/
def LockRow.instanceKey (row : LockRow) : UInt64 × UInt32 := (row.guid, row.instanceId)

structure InstanceRow where
  instanceId : UInt32
  data : String
  completedEncountersMask : UInt32
  entranceWorldSafeLocId : UInt32
  deriving DecidableEq, Repr

structure Tables where
  locks : List LockRow
  instances : List InstanceRow
  locks_nodup : (locks.map LockRow.key).Nodup
  locks_unique : (locks.map LockRow.instanceKey).Nodup
  instances_nodup : (instances.map InstanceRow.instanceId).Nodup

def Tables.empty : Tables := ⟨[], [], nodup_nil, nodup_nil, nodup_nil⟩

/-- Prepared statements with their values in the order in which they are bound, and the one
statement with its text. -/
inductive Statement where
  /-- `CHAR_DEL_CHARACTER_INSTANCE_LOCK` -/
  | delCharacterInstanceLock (guid : UInt64) (mapId lockId : UInt32)
  /-- `CHAR_INS_CHARACTER_INSTANCE_LOCK` -/
  | insCharacterInstanceLock (row : LockRow)
  /-- `CHAR_UPD_CHARACTER_INSTANCE_LOCK_EXTENSION` -/
  | updCharacterInstanceLockExtension (extended : UInt8) (guid : UInt64) (mapId lockId : UInt32)
  /-- `CHAR_UPD_CHARACTER_INSTANCE_LOCK_FORCE_EXPIRE` -/
  | updCharacterInstanceLockForceExpire (expiryTime guid : UInt64) (mapId lockId : UInt32)
  /-- `CHAR_DEL_INSTANCE` -/
  | delInstance (instanceId : UInt32)
  /-- `CHAR_INS_INSTANCE` -/
  | insInstance (row : InstanceRow)
  /-- `DELETE FROM character_instance_lock WHERE instanceId = {}` -/
  | deleteLocksOfInstance (instanceId : UInt32)

/-- The statement is about `instance`. -/
def Statement.OnInstances : Statement → Prop
  | .delInstance _ | .insInstance _ => True
  | _ => False

structure Executes (execute : Statement → Tables → Tables) : Prop where
  locks_of_instances : ∀ {statement t}, statement.OnInstances →
    (execute statement t).locks = t.locks
  instances_of_locks : ∀ {statement t}, ¬ statement.OnInstances →
    (execute statement t).instances = t.instances
  delCharacterInstanceLock : ∀ {guid mapId lockId t},
    (execute (.delCharacterInstanceLock guid mapId lockId) t).locks =
      t.locks.filter (·.key ≠ (guid, mapId, lockId))
  /-- Unless a key is taken. -/
  insCharacterInstanceLock : ∀ {row t}, row.key ∉ t.locks.map LockRow.key →
    row.instanceKey ∉ t.locks.map LockRow.instanceKey →
    (execute (.insCharacterInstanceLock row) t).locks = t.locks ++ [row]
  updCharacterInstanceLockExtension : ∀ {extended guid mapId lockId t},
    (execute (.updCharacterInstanceLockExtension extended guid mapId lockId) t).locks =
      t.locks.map fun row =>
        if row.key = (guid, mapId, lockId) then { row with extended := extended } else row
  updCharacterInstanceLockForceExpire : ∀ {expiryTime guid mapId lockId t},
    (execute (.updCharacterInstanceLockForceExpire expiryTime guid mapId lockId) t).locks =
      t.locks.map fun row =>
        if row.key = (guid, mapId, lockId) then { row with expiryTime := expiryTime, extended := 0 }
        else row
  delInstance : ∀ {instanceId t}, (execute (.delInstance instanceId) t).instances =
      t.instances.filter (·.instanceId ≠ instanceId)
  insInstance : ∀ {row t}, row.instanceId ∉ t.instances.map InstanceRow.instanceId →
    (execute (.insInstance row) t).instances = t.instances ++ [row]
  deleteLocksOfInstance : ∀ {instanceId t}, (execute (.deleteLocksOfInstance instanceId) t).locks =
      t.locks.filter (·.instanceId ≠ instanceId)

section Lists

variable {t : Tables}

variable {α β : Type} {l : List α} {f : α → β}

theorem nodup_filter (h : (l.map f).Nodup) (keep : α → Bool) : ((l.filter keep).map f).Nodup :=
  h.sublist (filter_sublist.map f)

theorem nodup_map (h : (l.map f).Nodup) {g : α → α} (hg : ∀ x, f (g x) = f x) :
    ((l.map g).map f).Nodup := by
  have hcomp : f ∘ g = f := funext hg
  rw [map_map, hcomp]
  exact h

theorem nodup_insert (h : (l.map f).Nodup) {x : α} (hx : f x ∉ l.map f) :
    ((l ++ [x]).map f).Nodup := by
  rw [map_append, map_singleton]
  exact nodup_append.mpr ⟨h, nodup_singleton _, fun a ha b hb hsame =>
    hx (mem_singleton.mp hb ▸ hsame ▸ ha)⟩

def Tables.keepLocks (t : Tables) (keep : LockRow → Bool) : Tables :=
  { t with
    locks := t.locks.filter keep
    locks_nodup := nodup_filter t.locks_nodup keep
    locks_unique := nodup_filter t.locks_unique keep }

def Tables.changeLocks (t : Tables) (f : LockRow → LockRow) (hkey : ∀ row, (f row).key = row.key)
    (hunique : ∀ row, (f row).instanceKey = row.instanceKey) : Tables :=
  { t with
    locks := t.locks.map f
    locks_nodup := nodup_map t.locks_nodup hkey
    locks_unique := nodup_map t.locks_unique hunique }

def runStatement : Statement → Tables → Tables
  | .delCharacterInstanceLock guid mapId lockId, t => t.keepLocks (·.key ≠ (guid, mapId, lockId))
  | .insCharacterInstanceLock row, t =>
    if h : row.key ∉ t.locks.map LockRow.key ∧
        row.instanceKey ∉ t.locks.map LockRow.instanceKey then
      { t with
        locks := t.locks ++ [row]
        locks_nodup := nodup_insert t.locks_nodup h.1
        locks_unique := nodup_insert t.locks_unique h.2 }
    else t
  | .updCharacterInstanceLockExtension extended guid mapId lockId, t =>
    t.changeLocks
      (fun row => if row.key = (guid, mapId, lockId) then { row with extended := extended } else row)
      (fun row => by split <;> rfl) (fun row => by split <;> rfl)
  | .updCharacterInstanceLockForceExpire expiryTime guid mapId lockId, t =>
    t.changeLocks (fun row =>
        if row.key = (guid, mapId, lockId) then { row with expiryTime := expiryTime, extended := 0 }
        else row)
      (fun row => by split <;> rfl) (fun row => by split <;> rfl)
  | .delInstance instanceId, t =>
    { t with
      instances := t.instances.filter (·.instanceId ≠ instanceId)
      instances_nodup := nodup_filter t.instances_nodup _ }
  | .insInstance row, t =>
    if h : row.instanceId ∉ t.instances.map InstanceRow.instanceId then
      { t with
        instances := t.instances ++ [row]
        instances_nodup := nodup_insert t.instances_nodup h }
    else t
  | .deleteLocksOfInstance instanceId, t => t.keepLocks (·.instanceId ≠ instanceId)

/-- There are statements as `Executes` describes them. -/
theorem runStatement_executes : Executes runStatement where
  locks_of_instances := by
    intro statement t h
    cases statement <;> simp only [Statement.OnInstances, runStatement] at h ⊢
    split <;> rfl
  instances_of_locks := by
    intro statement t h
    cases statement <;> simp only [Statement.OnInstances, runStatement, not_true_eq_false] at h ⊢
    · rfl
    · split <;> rfl
    all_goals rfl
  delCharacterInstanceLock := rfl
  insCharacterInstanceLock := by
    intro row t hkey hunique
    simp only [runStatement, dif_pos (And.intro hkey hunique)]
  updCharacterInstanceLockExtension := rfl
  updCharacterInstanceLockForceExpire := rfl
  delInstance := rfl
  insInstance := by
    intro row t hid
    simp only [runStatement, dif_pos hid]
  deleteLocksOfInstance := rfl

end Lists

def executeAll (execute : Statement → Tables → Tables) (statements : List Statement)
    (t : Tables) : Tables :=
  statements.foldl (fun t statement => execute statement t) t

/-!
# The manager of instance locks

`InstanceLock`, `SharedInstanceLockData` and `InstanceLockMgr` (`InstanceLockMgr.h:58-345`,
`InstanceLockMgr.cpp:28-527`). The data that locks share lies at an address; it lives as long as a
lock refers to it, and a `weak_ptr` is the address alone. A player is the counter of his guid.
Times are seconds, the clock has nanoseconds; the calendar is a parameter.
-/

/-- `Map.db2` and `MapDifficulty.db2` data of an instance. -/
structure MapDb2Entries where
  mapId : UInt16
  isFlexLocking : Bool
  difficultyId : UInt8
  resetInterval : UInt8
  lockId : UInt8
  isUsingEncounterLocks : Bool
  deriving DecidableEq, Repr

abbrev InstanceLockKey := UInt32 × UInt32

namespace MapDb2Entries

variable (entries : MapDb2Entries)

def getKey : InstanceLockKey :=
  (entries.mapId.toUInt32, entries.lockId.toUInt32)

def isInstanceIdBound : Bool :=
  !entries.isFlexLocking && !entries.isUsingEncounterLocks

def hasResetSchedule : Bool := entries.resetInterval ≠ 0

def getRaidDuration : Int64 :=
  if entries.resetInterval = 1 then 86400
  else if entries.resetInterval = 2 then 604800
  else 0

end MapDb2Entries

/-- The stores of map difficulties; `MapDb2Entries{ mapId, difficulty }` asserts that there is
one. -/
structure Db2Stores where
  getMapDifficultyData : UInt32 → UInt8 → Option MapDb2Entries
  key : ∀ {mapId difficulty entries}, getMapDifficultyData mapId difficulty = some entries →
    entries.mapId.toUInt32 = mapId ∧ entries.difficultyId = difficulty

inductive Fault where
  | assertion
  deriving DecidableEq, Repr

structure Calendar where
  /-- `GetSystemTime()` in nanoseconds -/
  now : Int
  getNextResetTime : MapDb2Entries → Int64

structure InstanceLockData where
  data : String := ""
  completedEncountersMask : UInt32 := 0
  entranceWorldSafeLocId : UInt32 := 0
  deriving DecidableEq, Repr

structure SharedInstanceLockData extends InstanceLockData where
  instanceId : UInt32 := 0
  deriving DecidableEq, Repr

abbrev Pointer := Nat

structure InstanceLock where
  mapId : UInt32
  difficultyId : UInt8
  instanceId : UInt32
  expiryTime : Int64
  extended : Bool := false
  data : InstanceLockData := {}
  isInUse : Bool := false
  isNew : Bool := false
  /-- `_sharedData` of a `SharedInstanceLock` -/
  sharedData : Option Pointer
  deriving DecidableEq, Repr

namespace InstanceLock

variable (lock : InstanceLock)

def isExpired (calendar : Calendar) : Bool :=
  lock.expiryTime.toInt * 1000000000 < calendar.now

def setInstanceId (instanceId : UInt32) : InstanceLock :=
  { lock with instanceId := instanceId }

def setExpiryTime (expiryTime : Int64) : InstanceLock :=
  { lock with expiryTime := expiryTime }

def setExtended (extended : Bool) : InstanceLock :=
  { lock with extended := extended }

def setInUse (inUse : Bool) : InstanceLock := { lock with isInUse := inUse }

def getEffectiveExpiryTime (db2 : Db2Stores) (calendar : Calendar) : Except Fault Int64 :=
  if lock.extended = false then .ok lock.expiryTime
  else
    match db2.getMapDifficultyData lock.mapId lock.difficultyId with
    | none => .error .assertion
    | some entries =>
      if lock.isExpired calendar then .ok (calendar.getNextResetTime entries)
      else .ok (lock.expiryTime + entries.getRaidDuration)

end InstanceLock

structure InstanceLockUpdateEvent where
  instanceId : UInt32
  newData : String
  instanceCompletedEncountersMask : UInt32
  /-- `CompletedEncounter->Bit` -/
  completedEncounter : Option UInt32
  entranceWorldSafeLocId : Option UInt32

structure PlayerLock where
  player : UInt64
  key : InstanceLockKey
  lock : InstanceLock
  deriving DecidableEq, Repr

def PlayerLock.slot (entry : PlayerLock) : UInt64 × InstanceLockKey := (entry.player, entry.key)

structure InstanceLockMgr where
  temporaryInstanceLocksByPlayer : List PlayerLock := []
  instanceLocksByPlayer : List PlayerLock := []
  instanceLockDataById : UInt32 → Option Pointer := fun _ => none
  shared : Pointer → SharedInstanceLockData := fun _ => {}
  /-- The next address `make_shared` gives. -/
  next : Pointer := 0
  /-- The statements so far. -/
  issued : List Statement := []

section
variable (locks : List PlayerLock) (player : UInt64) (key : InstanceLockKey)

/-- `locks[player][key]` -/
def findLock : Option InstanceLock :=
  (KeyedRows.rowOf PlayerLock.slot locks (player, key)).map PlayerLock.lock

/-- `locks[player][key].reset(lock)` -/
def setLock (lock : InstanceLock) : List PlayerLock :=
  locks.filter (·.slot ≠ (player, key)) ++ [⟨player, key, lock⟩]

/-- `locks[player].erase(key)` -/
def eraseLock : List PlayerLock :=
  locks.filter (·.slot ≠ (player, key))

def mapLock (f : InstanceLock → InstanceLock) : List PlayerLock :=
  locks.map fun entry =>
    if entry.slot = (player, key) then { entry with lock := f entry.lock } else entry

end

namespace InstanceLockMgr

variable (db2 : Db2Stores) (calendar : Calendar)

variable (mgr : InstanceLockMgr)

def issue (statements : List Statement) : InstanceLockMgr :=
  { mgr with issued := mgr.issued ++ statements }

def locks : List PlayerLock :=
  mgr.temporaryInstanceLocksByPlayer ++ mgr.instanceLocksByPlayer

/-- Some lock refers to the data: it has not expired. -/
def referenced (p : Pointer) : Bool :=
  mgr.locks.any (·.lock.sharedData = some p)

def onSharedInstanceLockDataDelete (instanceId : UInt32) : InstanceLockMgr :=
  match mgr.instanceLockDataById instanceId with
  | none => mgr
  | some p =>
    -- it might be pointing to a different and valid lock data
    if mgr.referenced p then mgr
    else { mgr with
      instanceLockDataById := Function.update mgr.instanceLockDataById instanceId none
      issued := mgr.issued ++ [.delInstance instanceId] }

/-- A reference to the data is gone; `~SharedInstanceLockData` runs with the last one. -/
def release (p : Pointer) : InstanceLockMgr :=
  if mgr.referenced p then mgr
  else if (mgr.shared p).instanceId = 0 then mgr
  else mgr.onSharedInstanceLockDataDelete (mgr.shared p).instanceId

/-- `delete lock` for a lock that is in no map any more. -/
def deleteLock (lock : Option InstanceLock) : InstanceLockMgr :=
  match lock.bind InstanceLock.sharedData with
  | none => mgr
  | some p => mgr.release p

/-- `_temporaryInstanceLocksByPlayer[player][key].reset(lock)`: the new lock is there before the
old one is deleted. -/
def resetTemporary (player : UInt64) (key : InstanceLockKey) (lock : InstanceLock) :
    InstanceLockMgr :=
  { mgr with
    temporaryInstanceLocksByPlayer :=
      setLock mgr.temporaryInstanceLocksByPlayer player key lock }.deleteLock
    (findLock mgr.temporaryInstanceLocksByPlayer player key)

def resetPermanent (player : UInt64) (key : InstanceLockKey) (lock : InstanceLock) :
    InstanceLockMgr :=
  { mgr with
    instanceLocksByPlayer := setLock mgr.instanceLocksByPlayer player key lock }.deleteLock
    (findLock mgr.instanceLocksByPlayer player key)

def modifyPermanent (player : UInt64) (key : InstanceLockKey) (f : InstanceLock → InstanceLock) :
    InstanceLockMgr :=
  { mgr with instanceLocksByPlayer := mapLock mgr.instanceLocksByPlayer player key f }

def sharedOfRow (row : InstanceRow) : SharedInstanceLockData where
  data := row.data
  completedEncountersMask := row.completedEncountersMask
  instanceId := row.instanceId

/-- The first query: the data of all instances, for the time of `Load`. -/
def loadInstances (rows : List InstanceRow) :
    List (UInt32 × Pointer) × (Pointer → SharedInstanceLockData) × Pointer :=
  rows.foldl (fun (byId, shared, next) row =>
    (byId ++ [(row.instanceId, next)], Function.update shared next (sharedOfRow row), next + 1))
    ([], fun _ => {}, 0)

/-- The lock of a row of `character_instance_lock`. -/
def lockOfRow (row : LockRow) (sharedData : Option Pointer) : InstanceLock where
  mapId := row.mapId
  difficultyId := row.difficulty
  instanceId := row.instanceId
  expiryTime := row.expiryTime.toInt64
  extended := row.extended ≠ 0
  data :=
    { data := row.data
      completedEncountersMask := row.completedEncountersMask }
  sharedData := sharedData

/-- `_instanceLocksByPlayer[playerGuid][InstanceLockKey{ mapId, lockId }].reset(instanceLock)`; the
data of a lock that it replaces lives to the end of `Load`. -/
def storeLoaded (row : LockRow) (sharedData : Option Pointer) : InstanceLockMgr :=
  { mgr with
    instanceLocksByPlayer :=
      setLock mgr.instanceLocksByPlayer row.guid (row.mapId, row.lockId)
        (lockOfRow row sharedData) }

/-- One row of the second query. -/
def loadLock (instanceLockDataById : List (UInt32 × Pointer)) (mgr : InstanceLockMgr)
    (row : LockRow) : Except Fault InstanceLockMgr :=
  match db2.getMapDifficultyData row.mapId row.difficulty with
  | none => .error .assertion
  | some entries =>
    if entries.isInstanceIdBound then
      match instanceLockDataById.lookup row.instanceId with
      | none => .ok (mgr.issue [.deleteLocksOfInstance row.instanceId])
      | some p =>
        .ok ({ mgr with
          instanceLockDataById :=
            Function.update mgr.instanceLockDataById row.instanceId (some p) }.storeLoaded row
          (some p))
    else .ok (mgr.storeLoaded row none)

/-- `Load` of a fresh manager. The data of all instances is released at its end. -/
def load (t : Tables) : Except Fault InstanceLockMgr := do
  let (byId, shared, next) := loadInstances t.instances
  let mgr ← t.locks.foldlM (loadLock db2 byId) { shared := shared, next := next }
  return byId.foldl (fun mgr entry => mgr.release entry.2) mgr

def findInstanceLock (locks : List PlayerLock) (player : UInt64) (entries : MapDb2Entries) :
    Option InstanceLock :=
  findLock locks player entries.getKey

def findActiveInstanceLock (player : UInt64) (entries : MapDb2Entries)
    (ignoreTemporary ignoreExpired : Bool) : Option InstanceLock :=
  let temporary :=
    if ignoreTemporary then none
    else findInstanceLock mgr.temporaryInstanceLocksByPlayer player entries
  match findInstanceLock mgr.instanceLocksByPlayer player entries with
  | none => temporary
  | some lock =>
    -- ignore expired and not extended locks
    if !lock.isExpired calendar || lock.extended || !ignoreExpired then some lock else temporary

/-- The lock that `InstanceLock` and `SharedInstanceLock` construct. -/
def newLock (entries : MapDb2Entries) (instanceId : UInt32) (sharedData : Option Pointer) :
    InstanceLock :=
  { mapId := entries.mapId.toUInt32
    difficultyId := entries.difficultyId
    instanceId := instanceId
    expiryTime := calendar.getNextResetTime entries
    sharedData := sharedData }

def createInstanceLockForNewInstance (player : UInt64) (entries : MapDb2Entries)
    (instanceId : UInt32) : InstanceLockMgr :=
  if entries.hasResetSchedule = false then mgr
  else if entries.isInstanceIdBound then
    { mgr with
      shared := Function.update mgr.shared mgr.next {}
      next := mgr.next + 1
      instanceLockDataById :=
        Function.update mgr.instanceLockDataById instanceId (some mgr.next) }.resetTemporary
      player entries.getKey
      { newLock calendar entries instanceId (some mgr.next) with isNew := true }
  else
    mgr.resetTemporary player entries.getKey
      { newLock calendar entries instanceId none with isNew := true }

/-- "Move lock from temporary storage if it exists there." -/
def promote (player : UInt64) (entries : MapDb2Entries) : InstanceLockMgr × Option InstanceLock :=
  match findInstanceLock mgr.temporaryInstanceLocksByPlayer player entries with
  | none => (mgr, none)
  | some lock =>
    ({ mgr with
      temporaryInstanceLocksByPlayer :=
        eraseLock mgr.temporaryInstanceLocksByPlayer player entries.getKey }.resetPermanent
      player entries.getKey lock, some lock)

/-- `1u << CompletedEncounter->Bit` -/
def encounterBit (completedEncounter : Option UInt32) : UInt32 :=
  match completedEncounter with
  | none => 0
  | some bit => 1 <<< bit

/-- What `UpdateInstanceLockForPlayer` writes into the lock. -/
def updatedLock (entries : MapDb2Entries) (event : InstanceLockUpdateEvent) (lock : InstanceLock) :
    InstanceLock :=
  let mask := lock.data.completedEncountersMask ||| encounterBit event.completedEncounter
  let lock := { lock with
    isNew := false
    data :=
      { data := event.newData
        completedEncountersMask :=
          if entries.isUsingEncounterLocks then mask
          else mask ||| event.instanceCompletedEncountersMask
        entranceWorldSafeLocId :=
          event.entranceWorldSafeLocId.getD lock.data.entranceWorldSafeLocId } }
  if lock.isExpired calendar then
    (lock.setExpiryTime (calendar.getNextResetTime entries)).setExtended false
  else lock

def lockRow (player : UInt64) (entries : MapDb2Entries) (lock : InstanceLock) : LockRow where
  guid := player
  mapId := entries.mapId.toUInt32
  lockId := entries.lockId.toUInt32
  instanceId := lock.instanceId
  difficulty := entries.difficultyId
  data := lock.data.data
  completedEncountersMask := lock.data.completedEncountersMask
  entranceWorldSafeLocId := lock.data.entranceWorldSafeLocId
  expiryTime := lock.expiryTime.toUInt64
  extended := if lock.extended then 1 else 0

/-- The lock that `UpdateInstanceLockForPlayer` finds in one of the maps; it is permanent then. -/
def locateLock (player : UInt64) (entries : MapDb2Entries) :
    InstanceLockMgr × Option InstanceLock :=
  match mgr.findActiveInstanceLock calendar player entries true true with
  | some lock => (mgr, some lock)
  | none => mgr.promote player entries

/-- The lock to update with the instance id of the event, a new one where none is found. -/
def bindLock (player : UInt64) (entries : MapDb2Entries) (event : InstanceLockUpdateEvent)
    (found : Option InstanceLock) :
    Except Fault (InstanceLockMgr × InstanceLock) :=
  match found with
  | none =>
    if entries.isInstanceIdBound then
      match mgr.instanceLockDataById event.instanceId with
      | none => .error .assertion
      | some p =>
        if mgr.referenced p = false then .error .assertion
        else if (mgr.shared p).instanceId ≠ event.instanceId then .error .assertion
        else
          let lock := newLock calendar entries event.instanceId (some p)
          .ok (mgr.resetPermanent player entries.getKey lock, lock)
    else
      let lock := newLock calendar entries event.instanceId none
      .ok (mgr.resetPermanent player entries.getKey lock, lock)
  | some lock =>
    let bound := (mgr.modifyPermanent player entries.getKey (·.setInstanceId event.instanceId),
      lock.setInstanceId event.instanceId)
    if entries.isInstanceIdBound then
      if lock.instanceId ≠ event.instanceId then .error .assertion
      else
        match mgr.instanceLockDataById event.instanceId with
        | none => .error .assertion
        | some p =>
          if mgr.referenced p = true ∧ lock.sharedData = some p then .ok bound
          else .error .assertion
    else .ok bound

def updateInstanceLockForPlayer (player : UInt64) (entries : MapDb2Entries)
    (event : InstanceLockUpdateEvent) : Except Fault InstanceLockMgr := do
  let (mgr, found) := mgr.locateLock calendar player entries
  let (mgr, lock) ← mgr.bindLock calendar player entries event found
  let mgr := mgr.modifyPermanent player entries.getKey (updatedLock calendar entries event)
  return mgr.issue [.delCharacterInstanceLock player entries.mapId.toUInt32 entries.lockId.toUInt32,
      .insCharacterInstanceLock (lockRow player entries (updatedLock calendar entries event lock))]

/-- What `UpdateSharedInstanceLock` writes into the data. -/
def updatedShared (event : InstanceLockUpdateEvent) (sharedData : SharedInstanceLockData) :
    SharedInstanceLockData where
  data := event.newData
  instanceId := event.instanceId
  completedEncountersMask :=
    sharedData.completedEncountersMask ||| encounterBit event.completedEncounter
  entranceWorldSafeLocId := event.entranceWorldSafeLocId.getD sharedData.entranceWorldSafeLocId

def instanceRow (sharedData : SharedInstanceLockData) : InstanceRow where
  instanceId := sharedData.instanceId
  data := sharedData.data
  completedEncountersMask := sharedData.completedEncountersMask
  entranceWorldSafeLocId := sharedData.entranceWorldSafeLocId

def updateSharedInstanceLock (event : InstanceLockUpdateEvent) : Except Fault InstanceLockMgr :=
  match mgr.instanceLockDataById event.instanceId with
  | none => .error .assertion
  | some p => do
    if mgr.referenced p = false then throw .assertion
    if (mgr.shared p).instanceId ≠ 0 ∧ (mgr.shared p).instanceId ≠ event.instanceId then
      throw .assertion
    let sharedData := updatedShared event (mgr.shared p)
    return { mgr with shared := Function.update mgr.shared p sharedData }.issue
      [.delInstance sharedData.instanceId, .insInstance (instanceRow sharedData)]

/-- `UpdateInstanceLockExtensionForPlayer`, with the effective expiry times before and after. -/
def updateInstanceLockExtensionForPlayer (player : UInt64) (entries : MapDb2Entries)
    (extended : Bool) :
    Except Fault (InstanceLockMgr × Option (Int64 × Int64)) :=
  match mgr.findActiveInstanceLock calendar player entries true false with
  | none => .ok (mgr, none)
  | some lock => do
    let oldExpiryTime ← lock.getEffectiveExpiryTime db2 calendar
    let newExpiryTime ← (lock.setExtended extended).getEffectiveExpiryTime db2 calendar
    let mgr := mgr.modifyPermanent player entries.getKey (·.setExtended extended)
    return (mgr.issue [.updCharacterInstanceLockExtension (if extended then 1 else 0) player
      entries.mapId.toUInt32 entries.lockId.toUInt32], some (oldExpiryTime, newExpiryTime))

/-- The filters of `ResetInstanceLocksForPlayer`. -/
def isReset (mapId : Option UInt32) (difficulty : Option UInt8) (lock : InstanceLock) : Bool :=
  !lock.isInUse && mapId.all (· = lock.mapId) && difficulty.all (· = lock.difficultyId) &&
    !lock.isExpired calendar

/-- One lock of `locksReset`. -/
def forceExpire (player : UInt64) (mgr : InstanceLockMgr) (entry : PlayerLock) :
    Except Fault InstanceLockMgr :=
  match db2.getMapDifficultyData entry.lock.mapId entry.lock.difficultyId with
  | none => .error .assertion
  | some entries =>
    let newExpiryTime := calendar.getNextResetTime entries - entries.getRaidDuration
    .ok ((mgr.modifyPermanent player entry.key
      fun lock => (lock.setExpiryTime newExpiryTime).setExtended false).issue
      [.updCharacterInstanceLockForceExpire newExpiryTime.toUInt64 player
        entries.mapId.toUInt32 entries.lockId.toUInt32])

/-- `ResetInstanceLocksForPlayer`, with `locksReset` and `locksFailedToReset`. -/
def resetInstanceLocksForPlayer (player : UInt64) (mapId : Option UInt32)
    (difficulty : Option UInt8) :
    Except Fault (InstanceLockMgr × List PlayerLock × List PlayerLock) := do
  let playerLocks := mgr.instanceLocksByPlayer.filter (·.player = player)
  let locksFailedToReset := playerLocks.filter (·.lock.isInUse)
  let locksReset := playerLocks.filter (isReset calendar mapId difficulty ·.lock)
  let mgr ← locksReset.foldlM (forceExpire db2 calendar player) mgr
  return (mgr, locksReset, locksFailedToReset)

/-- `SetInUse`, when a map is made for a lock or is gone. -/
def setInUse (mgr : InstanceLockMgr) (player : UInt64) (key : InstanceLockKey) (inUse : Bool) :
    InstanceLockMgr :=
  { mgr with
    temporaryInstanceLocksByPlayer :=
      mapLock mgr.temporaryInstanceLocksByPlayer player key (·.setInUse inUse)
    instanceLocksByPlayer := mapLock mgr.instanceLocksByPlayer player key (·.setInUse inUse) }

end InstanceLockMgr

end LegionServer.Source.Instances
